import DelegatedFetch.Fetch.Accessor
import DelegatedFetch.Text.Quoted

/-!
# Descriptions for logs

Each value that may hold a secret has a description that does not: the secret
of a consumer or of a token, a session handle, a sealed state and the callback
that brought a verifier are masked, or only said to be there.
-/

namespace DelegatedFetch

namespace Description

/-- What stands for a secret. -/
def mask : String := "<redacted>"

def optional (v : Option String) : String :=
  match v with
  | some v => "Some(" ++ v ++ ")"
  | none => "None"

def optionalText (s : Option String) : String := optional (s.map Quoted.encode)

def optionalSecret (s : Option String) : String := optionalText (s.map fun _ => mask)

def optionalTime (t : Option UInt64) : String := optional (t.map fun t => toString t.toNat)

def record (name : String) (fields : List (String × String)) : String :=
  name ++ " \x7b " ++ String.intercalate ", " (fields.map fun f => f.1 ++ ": " ++ f.2) ++ " \x7d"

end Description

open Description

def ConsumerSecret.describe : ConsumerSecret → String
  | .hmac _ => "Hmac(" ++ mask ++ ")"
  | .rsa _ => "RsaPrivate(" ++ mask ++ ")"

def Consumer.describe (c : Consumer) : String :=
  record "ConsumerKeyAndSecret"
    [("consumer_key", Quoted.encode c.key), ("secret", c.secret.describe),
      ("key_name", optionalText c.keyName), ("callback_url", optionalText c.callback)]

def TokenInfo.describe (t : TokenInfo) : String :=
  record "TokenInfo"
    [("access_token", Quoted.encode t.token), ("token_secret", Quoted.encode mask),
      ("session_handle", optionalSecret t.sessionHandle),
      ("token_expire_millis", optionalTime t.expires)]

def ClientState.describe (s : ClientState) : String :=
  record "ClientState"
    [("request_token", optionalText s.requestToken),
      ("request_token_secret", optionalSecret s.requestTokenSecret),
      ("access_token", optionalText s.accessToken),
      ("access_token_secret", optionalSecret s.accessTokenSecret),
      ("session_handle", optionalSecret s.sessionHandle),
      ("token_expire_millis", optionalTime s.expires),
      ("owner", optionalText s.owner), ("callback_url", optionalText s.callback)]

def Crypter.describe (c : Crypter) : String :=
  "AesBlobCrypter \x7b label: " ++ Quoted.encode c.label ++ ", .. \x7d"

def HeldToken.describe : HeldToken → String
  | .none => "None"
  | .request t _ => "Request(" ++ t ++ ")"
  | .access t _ => "Access(" ++ t ++ ")"

def FetchKind.describe : FetchKind → String
  | .delegated => "OAuth"
  | .signed => "SignedFetch"

def TokenUse.describe : TokenUse → String
  | .never => "Never"
  | .ifAvailable => "IfAvailable"
  | .always => "Always"

def FetchArguments.describe (a : FetchArguments) : String :=
  record "OAuthArguments"
    [("auth_type", a.kind.describe), ("service_name", Quoted.encode a.service),
      ("token_name", Quoted.encode a.tokenName), ("use_token", a.tokenUse.describe),
      ("sign_owner", toString a.signOwner), ("sign_viewer", toString a.signViewer),
      ("request_token", optionalText a.requestToken),
      ("request_token_secret", optionalSecret a.requestTokenSecret),
      ("has_client_state", toString a.clientState.isSome),
      ("received_callback", toString a.receivedCallback.isSome),
      ("bypass_cache", toString a.bypassCache)]

end DelegatedFetch
