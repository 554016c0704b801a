import DelegatedFetch.Protocol.Refusal
import DelegatedFetch.Signing.Parameter
import DelegatedFetch.Url.Parse

/-!
# What a caller wants of a fetch

A delegated fetch names a service and tells whether a token is needed; a
signed fetch uses no token at all. Both can be given as values or as request
parameters with fixed names.
-/

namespace DelegatedFetch

/-- Whether a fetch uses an access token. -/
inductive TokenUse where
  /-- The consumer signs alone. -/
  | never
  /-- An approved token is used if there is one. -/
  | ifAvailable
  /-- A token is required, and approval is asked for if there is none. -/
  | always
  deriving DecidableEq, Repr

namespace TokenUse

def word : TokenUse → String
  | never => "never"
  | ifAvailable => "if_available"
  | always => "always"

def all : List TokenUse := [never, ifAvailable, always]

/-- The use of a word, blanks around it and its letter case aside. -/
def parse? (s : String) : Option TokenUse :=
  let lower := (trim s).toLower
  all.find? (·.word == lower)

end TokenUse

/-- How a fetch is signed. -/
inductive FetchKind where
  /-- In the name of a viewer, for a declared service. -/
  | delegated
  /-- By the consumer, telling who owns and views the page. -/
  | signed
  deriving DecidableEq, Repr

/-- What a caller wants of one fetch. -/
structure FetchArguments where
  kind : FetchKind
  service : String
  tokenName : String
  tokenUse : TokenUse
  signOwner : Bool
  signViewer : Bool
  requestToken : Option String
  requestTokenSecret : Option String
  clientState : Option String
  receivedCallback : Option String
  bypassCache : Bool
  deriving DecidableEq, Repr

namespace FetchArguments

/-- A delegated fetch from a service: a token is required, owner and viewer are signed. -/
def delegated (service : String) : FetchArguments :=
  ⟨.delegated, service, "", .always, true, true, none, none, none, none, false⟩

/-- A signed fetch: no service and no token. -/
def signed : FetchArguments := { delegated "" with kind := .signed, tokenUse := .never }

def nonEmpty (params : Table String String) (name : String) : Option String :=
  (params.find? name).filter (· != "")

/-- A parameter that is true or false, by word or by figure. -/
def flag (params : Table String String) (name : String) (default : Bool) : Bool :=
  match (params.find? name).map fun v => (trim v).toLower with
  | some "true" | some "1" => true
  | some "false" | some "0" => false
  | _ => default

def ofParameters (kind : FetchKind) (params : Table String String) :
    Except Refusal FetchArguments := do
  let base := match kind with
    | .delegated => delegated ((params.find? "OAUTH_SERVICE_NAME").getD "")
    | .signed => signed
  let tokenUse ← match kind, params.find? "OAUTH_USE_TOKEN" with
    | .delegated, some raw =>
      ((TokenUse.parse? raw).map .ok).getD (.error (.unknownTokenUse raw))
    | _, _ => pure base.tokenUse
  return { base with
    tokenName := (params.find? "OAUTH_TOKEN_NAME").getD ""
    tokenUse
    requestToken := nonEmpty params "OAUTH_REQUEST_TOKEN"
    requestTokenSecret := nonEmpty params "OAUTH_REQUEST_TOKEN_SECRET"
    clientState := nonEmpty params "oauthState"
    receivedCallback := nonEmpty params "OAUTH_RECEIVED_CALLBACK"
    signOwner := flag params "signOwner" true
    signViewer := flag params "signViewer" true
    bypassCache := flag params "bypassCache" false }

/-- The proof of approval that the callback brought back. -/
def verifier (a : FetchArguments) : Option String := do
  let text ← a.receivedCallback
  match Url.parse text with
  | .ok url => url.queryPairs.first? Parameter.verifier
  | .error _ => none

end FetchArguments
end DelegatedFetch
