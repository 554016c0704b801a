import DelegatedFetch.Http.Message
import DelegatedFetch.Protocol.Refusal

/-!
# Parameters of the protocol

The names of the protocol's parameters, and the prefixes that are reserved
for it: a caller may send no parameter whose name begins with one of them, in
any letter case.
-/

namespace DelegatedFetch

namespace Parameter

def consumerKey : String := "oauth_consumer_key"
def token : String := "oauth_token"
def tokenSecret : String := "oauth_token_secret"
def signatureMethod : String := "oauth_signature_method"
def signature : String := "oauth_signature"
def timestamp : String := "oauth_timestamp"
def nonce : String := "oauth_nonce"
def version : String := "oauth_version"
def bodyHash : String := "oauth_body_hash"
def callback : String := "oauth_callback"
def callbackConfirmed : String := "oauth_callback_confirmed"
def verifier : String := "oauth_verifier"
def sessionHandle : String := "oauth_session_handle"
def expiresIn : String := "oauth_expires_in"
def problem : String := "oauth_problem"
def problemAdvice : String := "oauth_problem_advice"
def ownerId : String := "opensocial_owner_id"
def viewerId : String := "opensocial_viewer_id"
def appId : String := "opensocial_app_id"
def appUrl : String := "opensocial_app_url"
/-- The name of the key that verifies a signature, in its first spelling. -/
def publicKeyFirst : String := "xoauth_signature_publickey"
def publicKeySecond : String := "xoauth_public_key"

/-- The beginning of the names that the authorization header carries. -/
def headerBeginning : String := "oauth_"

/-- The beginnings of names that callers may not use. -/
def reservedBeginnings : List String := ["oauth_", "opensocial_", "xoauth_"]

/-- A name is reserved when it begins as one, in any letter case. -/
def isReserved (name : String) : Bool :=
  reservedBeginnings.any fun p => p.toList.isPrefixOf (name.toLower.toList)

/-- A name belongs to the protocol proper. -/
def isProtocol (name : String) : Bool := headerBeginning.toList.isPrefixOf name.toList

end Parameter

/-- The caller's own parameters use no reserved name: the query is looked at first, then the body
if it is a form. -/
def Request.checkCaller (r : Request) : Except Refusal Unit :=
  match r.url.queryPairs.find? (Parameter.isReserved ·.1) with
  | some (name, _) => .error (.reservedInQuery name)
  | none =>
    match r.formPairs.find? (Parameter.isReserved ·.1) with
    | some (name, _) => .error (.reservedInBody name)
    | none => .ok ()

end DelegatedFetch
