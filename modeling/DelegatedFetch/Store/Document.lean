import DelegatedFetch.Json.Parser
import DelegatedFetch.Json.Record
import DelegatedFetch.Settings.Environment
import DelegatedFetch.Store.Basic

/-!
# Documents that fill a store

A JSON document registers consumers: gadgets by address, in each the services
by name, in each a consumer. Keys, secrets and callbacks may refer to the
environment. A key file gives the default key.
-/

namespace DelegatedFetch

/-- A consumer as a document gives it. -/
structure ConsumerEntry where
  key : String
  secret : String
  keyType : KeyType
  keyName : Option String
  callback : Option String
  deriving DecidableEq, Repr

namespace ConsumerEntry

open Json

def keyType? (v : Value) : Option KeyType := do
  let w ← v.word? (KeyType.all.map KeyType.word)
  KeyType.all.find? (·.word == w)

def ofJson? (v : Value) : Option ConsumerEntry := do
  match ← v.fields?
      ["consumer_key", "consumer_secret", "key_type", "key_name", "callback_url"] with
  | [key, secret, type, keyName, callback] =>
    some {
      key := ← required? Value.text? key
      secret := ← required? Value.text? secret
      keyType := ← defaulted? .hmacSymmetric keyType? type
      keyName := ← optional? Value.text? keyName
      callback := ← optional? Value.text? callback }
  | _ => none

def toConsumer (e : ConsumerEntry) (env : Environment) : Except KeyDocument.Error Consumer := do
  let secret ← ConsumerSecret.ofText e.keyType (env.expand e.secret)
  return ⟨env.expand e.key, secret, e.keyName, e.callback.map env.expand⟩

end ConsumerEntry

namespace Store

/-- The entries of a document, each with its gadget and service. -/
def documentEntries (text : String) : Except Failure (List ((String × String) × ConsumerEntry)) :=
  match (Json.parse? text).bind (Json.Value.table? (Json.Value.table? ConsumerEntry.ofJson?)) with
  | some gadgets =>
    .ok (gadgets.entries.flatMap fun (gadget, services) =>
      services.entries.map fun (service, e) => ((gadget, service), e))
  | none => .error (.json "not a document of consumers")

/-- Registers entries in order, up to the first that is no consumer. -/
def register (s : Store) (env : Environment) :
    List ((String × String) × ConsumerEntry) → Except Failure Unit × Store
  | [] => (.ok (), s)
  | ((gadget, service), e) :: rest =>
    match e.toConsumer env with
    | .ok c => (s.setConsumer gadget service c).register env rest
    | .error cause => (.error (.consumer gadget service cause), s)

/-- Registers the consumers of a document, and tells how many there are. -/
def load (s : Store) (env : Environment) (text : String) : Except Failure Nat × Store :=
  match documentEntries text with
  | .ok entries =>
    let (result, s) := s.register env entries
    (result.map fun _ => entries.length, s)
  | .error e => (.error e, s)

def loadFile (s : Store) (env : Environment) (path : String) (contents : Except ReadError String) :
    Except Failure Nat × Store :=
  match contents with
  | .ok text => s.load env text
  | .error e => (.error (.consumerFile path e), s)

def loadDefaultKey (s : Store) (path : String) (contents : Except ReadError String)
    (consumerKey keyName callback : Option String) : Except Failure Store :=
  match contents with
  | .error e => .error (.signingKeyFile path e)
  | .ok text =>
    match KeyDocument.ofText text with
    | .error e => .error (.key e)
    | .ok key => .ok (s.setDefaultKey ⟨consumerKey.getD "", .rsa key, keyName, callback⟩)

end Store
end DelegatedFetch
