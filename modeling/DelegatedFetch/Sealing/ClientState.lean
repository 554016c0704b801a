import DelegatedFetch.Json.Parser
import DelegatedFetch.Json.Printer
import DelegatedFetch.Sealing.Crypter
import DelegatedFetch.Token.TokenInfo

/-!
# State that travels with the caller

Between two calls the caller carries tokens in a sealed blob. The blob has the
time of its making; a blob that is older than allowed, was changed on the way
or is no blob at all counts as no state, and the dance starts over.
-/

namespace DelegatedFetch

/-- What a caller carries from one call to the next. -/
structure ClientState where
  requestToken : Option String := none
  requestTokenSecret : Option String := none
  accessToken : Option String := none
  accessTokenSecret : Option String := none
  sessionHandle : Option String := none
  expires : Option UInt64 := none
  owner : Option String := none
  callback : Option String := none
  deriving DecidableEq, Repr

namespace ClientState

def empty : ClientState := {}

instance : Inhabited ClientState := ⟨empty⟩

def clearRequestToken (s : ClientState) : ClientState :=
  { s with requestToken := none, requestTokenSecret := none }

/-- The state without its access token and what belongs to it. -/
def clearAccessToken (s : ClientState) : ClientState :=
  { s with accessToken := none, accessTokenSecret := none, sessionHandle := none, expires := none }

def setAccessToken (s : ClientState) (t : TokenInfo) : ClientState :=
  { s with
    accessToken := some t.token, accessTokenSecret := some t.secret
    sessionHandle := t.sessionHandle, expires := t.expires }

/-- The access token that is carried, if it has a secret. -/
def accessInfo? (s : ClientState) : Option TokenInfo := do
  return ⟨← s.accessToken, ← s.accessTokenSecret, s.sessionHandle, s.expires⟩

theorem accessInfo?_setAccessToken (s : ClientState) (t : TokenInfo) :
    (s.setAccessToken t).accessInfo? = some t := rfl

open Json

def fieldNames : List String := ["r", "rs", "a", "as", "sh", "e", "o", "c"]

def toJson (s : ClientState) : Value :=
  .object (fieldOf "r" (s.requestToken.map .text) ++
    fieldOf "rs" (s.requestTokenSecret.map .text) ++
    fieldOf "a" (s.accessToken.map .text) ++
    fieldOf "as" (s.accessTokenSecret.map .text) ++
    fieldOf "sh" (s.sessionHandle.map .text) ++
    fieldOf "e" (s.expires.map fun e => .natural e.toNat) ++
    fieldOf "o" (s.owner.map .text) ++
    fieldOf "c" (s.callback.map .text))

def ofJson? (v : Value) : Option ClientState := do
  match ← v.fields? fieldNames with
  | [r, rs, a, as, sh, e, o, c] =>
    some {
      requestToken := ← optional? Value.text? r
      requestTokenSecret := ← optional? Value.text? rs
      accessToken := ← optional? Value.text? a
      accessTokenSecret := ← optional? Value.text? as
      sessionHandle := ← optional? Value.text? sh
      expires := ← optional? Value.uint64? e
      owner := ← optional? Value.text? o
      callback := ← optional? Value.text? c }
  | _ => none

/-- The text that is sealed: the state and when it was issued. -/
def envelope (s : ClientState) (issued : UInt64) : String :=
  (Value.object [("t", .natural issued.toNat), ("s", s.toJson)]).render

def ofEnvelope? (text : String) : Option (UInt64 × ClientState) := do
  match ← (← parse? text).fields? ["t", "s"] with
  | [t, s] => some (← required? Value.uint64? t, ← required? ofJson? s)
  | _ => none

/-- The sealed state; nothing is sealed, and no random byte is drawn, for a state that is empty. -/
def encode (s : ClientState) (c : Crypter) (now : UInt64) (entropy : Entropy) :
    Option String × Entropy :=
  if s = empty then (none, entropy)
  else
    let (blob, entropy) := c.sealFresh (Utf8.encode (s.envelope now)) entropy
    (some blob, entropy)

/-- The state in a blob, if it opens and is at most `maxAge` milliseconds old. -/
def open? (c : Crypter) (blob : String) (maxAge : Nat) (now : UInt64) : Option ClientState := do
  let plain ← (c.openBlob blob).toOption
  let (issued, s) ← ofEnvelope? (← Utf8.decode? plain)
  if (Decimal.satSub now issued).toNat ≤ maxAge then some s else none

/-- The state that a caller brings; a blob that does not open counts as none. -/
def decode (c : Crypter) (blob : Option String) (maxAge : Nat) (now : UInt64) : ClientState :=
  match blob with
  | some b => if b = "" then empty else (open? c b maxAge now).getD empty
  | none => empty

end ClientState
end DelegatedFetch
