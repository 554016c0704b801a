import DelegatedFetch.Crypto.KeyDocument

/-!
# Failures

A failure is not a matter between fetcher and provider: a file that cannot be
read, a key that is none, a blob that does not open, a connection that breaks.
Each cause is a constructor. The wording has an opening that is fixed by the
cause; where a reader of texts has refused something, its reason follows.
-/

namespace DelegatedFetch

/-- Why a file cannot be read. -/
inductive ReadError where
  | missing
  | directory
  | notText
  | other (text : String)
  deriving DecidableEq, Repr

def ReadError.message : ReadError → String
  | missing => "No such file or directory (os error 2)"
  | directory => "Is a directory (os error 21)"
  | notText => "stream did not contain valid UTF-8"
  | other text => text

/-- Why a sealed blob does not open. -/
inductive SealError where
  | badEncoding
  | tooShort
  | notAuthentic
  deriving DecidableEq, Repr

/-- What went wrong beside the protocol. -/
inductive Failure where
  | unreadableSettings (reason : String)
  | settingsNotFound (path : String)
  | shortKey (length : Nat)
  | noMasterKey
  | consumerFile (path : String) (cause : ReadError)
  | signingKeyFile (path : String) (cause : ReadError)
  | consumer (gadget service : String) (cause : KeyDocument.Error)
  | key (cause : KeyDocument.Error)
  | blob (cause : SealError)
  | transport (text : String)
  | json (reason : String)
  deriving DecidableEq, Repr

/-- The kinds of failures. -/
inductive FailureKind where
  | configuration
  | key
  | crypto
  | transport
  | json
  deriving DecidableEq, Repr

def FailureKind.heading : FailureKind → String
  | configuration => "Configuration error: "
  | key => "Key error: "
  | crypto => "Crypto error: "
  | transport => "Transport error: "
  | json => "JSON error: "

/-- What is said of a text that is not a key, before the reason. -/
def KeyDocument.Error.opening : KeyDocument.Error → String
  | unreadable => "Unable to parse RSA private key: "
  | neitherForm => "RSA private key is neither PEM nor base64: "

def KeyDocument.Error.reason : KeyDocument.Error → String
  | unreadable => "no private key in it"
  | neitherForm => "not a base64 text"

namespace Failure

def kind : Failure → FailureKind
  | unreadableSettings _ | settingsNotFound _ | shortKey _ | noMasterKey | consumerFile _ _
  | signingKeyFile _ _ | consumer _ _ _ => .configuration
  | key _ => .key
  | blob _ => .crypto
  | transport _ => .transport
  | json _ => .json

/-- The failure comes from the network. -/
def isTransport : Failure → Bool
  | transport _ => true
  | _ => false

/-- The wording without the reason of a reader. -/
def opening (f : Failure) : String :=
  f.kind.heading ++
    match f with
    | unreadableSettings _ | json _ => ""
    | settingsNotFound path => "Config file not found: " ++ path
    | shortKey n => "Crypter key must be at least 16 bytes, got " ++ toString n
    | noMasterKey => "state.master_key must be set (GADGET_OAUTH_STATE__MASTER_KEY)"
    | consumerFile path e => "Cannot read consumer file " ++ path ++ ": " ++ e.message
    | signingKeyFile path e => "Cannot read signing key " ++ path ++ ": " ++ e.message
    | consumer g s e =>
      "Consumer for gadget " ++ g ++ " service '" ++ s ++ "': " ++ FailureKind.key.heading ++
        e.opening
    | key e => e.opening
    | blob .badEncoding => "Invalid encoding: "
    | blob .tooShort => "Sealed blob too short"
    | blob .notAuthentic => "Blob failed authentication"
    | transport text => text

/-- The reason of a reader, where one has refused a text. -/
def reason? : Failure → Option String
  | unreadableSettings r | json r => some r
  | consumer _ _ e | key e => some e.reason
  | blob .badEncoding => some "not an unpadded base64url text"
  | _ => none

def message (f : Failure) : String := f.opening ++ f.reason?.getD ""

end Failure
end DelegatedFetch
