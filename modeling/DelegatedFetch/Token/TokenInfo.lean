import DelegatedFetch.Clock
import DelegatedFetch.Json.Record
import DelegatedFetch.Protocol.Refusal
import DelegatedFetch.Token.SecurityToken

/-!
# Access tokens

An access token with its secret. The provider may also have told a handle
that extends the session and when the token expires. A stored token belongs
to one viewer of one gadget instance, under one name for one service.
-/

namespace DelegatedFetch

/-- An access token as a provider issued it. -/
structure TokenInfo where
  token : String
  secret : String
  sessionHandle : Option String
  expires : Option UInt64
  deriving DecidableEq, Repr

namespace TokenInfo

def isExpired (t : TokenInfo) (now : UInt64) : Bool :=
  match t.expires with
  | some e => e ≤ now
  | none => false

open Json

/-- The token as a JSON record; what is not known is left out. -/
def toJson (t : TokenInfo) : Value :=
  .object ([("access_token", .text t.token), ("token_secret", .text t.secret)] ++
    fieldOf "session_handle" (t.sessionHandle.map .text) ++
    fieldOf "token_expire_millis" (t.expires.map fun e => .natural e.toNat))

def ofJson? (v : Value) : Option TokenInfo := do
  match ← v.fields? ["access_token", "token_secret", "session_handle", "token_expire_millis"] with
  | [token, secret, handle, expires] =>
    some {
      token := ← required? Value.text? token
      secret := ← required? Value.text? secret
      sessionHandle := ← optional? Value.text? handle
      expires := ← optional? Value.uint64? expires }
  | _ => none

end TokenInfo

/-- What a stored token belongs to. -/
structure TokenKey where
  gadget : String
  service : String
  viewer : String
  moduleId : UInt64
  tokenName : String
  deriving DecidableEq, Repr

/-- The key of a viewer's token; there is none without a viewer. -/
def TokenKey.of (t : SecurityToken) (service tokenName : String) : Except Refusal TokenKey :=
  match t.viewer with
  | some viewer => .ok ⟨t.appUrl, service, viewer, t.moduleId, tokenName⟩
  | none => .error .storageNeedsViewer

theorem TokenKey.viewer_of {t : SecurityToken} {service tokenName : String} {key : TokenKey}
    (own : TokenKey.of t service tokenName = .ok key) : some key.viewer = t.viewer := by
  unfold TokenKey.of at own
  split at own
  · rename_i viewer known
    rw [known, ← Except.ok.inj own]
  · cases own

/-- Only without a viewer, nothing can be looked up or changed in a store. -/
theorem TokenKey.viewer_of_map_error {α : Type} {f : TokenKey → α} {t : SecurityToken}
    {service tokenName : String} {r : Refusal}
    (h : (TokenKey.of t service tokenName).map f = .error r) : t.viewer = none := by
  unfold TokenKey.of at h
  split at h
  · cases h
  · assumption

end DelegatedFetch
