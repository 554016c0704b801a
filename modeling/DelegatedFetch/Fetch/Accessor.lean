import DelegatedFetch.Fetch.Arguments
import DelegatedFetch.Sealing.ClientState
import DelegatedFetch.Store.Basic

/-!
# What a fetch signs with

An accessor binds a consumer to at most one token. A request token that the
caller names comes first, then the viewer's stored access token, then what the
caller's state carries; without any of them the consumer signs alone. A signed
fetch, and a delegated one that wants no token, never bind one.
-/

namespace DelegatedFetch

/-- Where a token comes from. -/
inductive TokenSource where
  | none
  | arguments
  | store
  | clientState
  deriving DecidableEq, Repr

/-- A token of either kind with its secret, or none. -/
inductive HeldToken where
  | none
  | request (token secret : String)
  | access (token secret : String)
  deriving DecidableEq, Repr

namespace HeldToken

def token? : HeldToken → Option String
  | none => .none
  | request t _ | access t _ => some t

def secret? : HeldToken → Option String
  | none => .none
  | request _ s | access _ s => some s

def isAccess : HeldToken → Bool
  | access _ _ => true
  | _ => false

end HeldToken

/-- The token that an accessor is bound to, with all that is known about it. -/
inductive BoundToken where
  | none
  | request (token secret : String) (source : TokenSource)
  | access (info : TokenInfo) (source : TokenSource)
  deriving DecidableEq, Repr

namespace BoundToken

def token? : BoundToken → Option String
  | none => .none
  | request t _ _ => some t
  | access i _ => some i.token

def secret? : BoundToken → Option String
  | none => .none
  | request _ s _ => some s
  | access i _ => some i.secret

def source : BoundToken → TokenSource
  | none => .none
  | request _ _ s | access _ s => s

def accessInfo? : BoundToken → Option TokenInfo
  | access i _ => some i
  | _ => .none

end BoundToken

/-- A consumer with the token it signs with, and how the service wants to be called. The token,
where it comes from and what is known of its session stand side by side: only the changes below keep
them together. -/
structure Accessor where
  consumer : Consumer
  held : HeldToken := .none
  source : TokenSource := .none
  sessionHandle? : Option String := none
  expires? : Option UInt64 := none
  method : Method
  placement : Placement
  deriving DecidableEq, Repr

namespace Accessor

def consumerOnly (consumer : Consumer) (method : Method) (placement : Placement) : Accessor where
  consumer
  method
  placement

def credentials (a : Accessor) : Credentials :=
  ⟨a.consumer.key, a.consumer.secret, a.held.token?, a.held.secret?⟩

def hasAccessToken (a : Accessor) : Bool := a.held.isAccess

/-- The access token is known to have expired. -/
def isExpired (a : Accessor) (now : UInt64) : Bool :=
  a.hasAccessToken && a.expires?.any (· ≤ now)

def setAccessToken (a : Accessor) (info : TokenInfo) (source : TokenSource) : Accessor :=
  { a with
    held := .access info.token info.secret, source
    sessionHandle? := info.sessionHandle, expires? := info.expires }

def setRequestToken (a : Accessor) (token secret : String) (source : TokenSource) : Accessor :=
  { a with held := .request token secret, source, sessionHandle? := none, expires? := none }

def clearToken (a : Accessor) : Accessor :=
  { a with held := .none, source := .none, sessionHandle? := none, expires? := none }

/-- What is bound, taken together. -/
def token (a : Accessor) : BoundToken :=
  match a.held with
  | .none => .none
  | .request token secret => .request token secret a.source
  | .access token secret => .access ⟨token, secret, a.sessionHandle?, a.expires?⟩ a.source

def setToken (a : Accessor) : BoundToken → Accessor
  | .none => a.clearToken
  | .request token secret source => a.setRequestToken token secret source
  | .access info source => a.setAccessToken info source

variable {a : Accessor} {info : TokenInfo} {source : TokenSource}

@[simp] theorem token_setAccessToken : (a.setAccessToken info source).token = .access info source :=
  rfl

@[simp] theorem token_clearToken : a.clearToken.token = .none := rfl

@[simp] theorem token_setToken (b : BoundToken) : (a.setToken b).token = b := by
  cases b <;> rfl

@[simp] theorem consumer_setToken (b : BoundToken) : (a.setToken b).consumer = a.consumer := by
  cases b <;> rfl

@[simp] theorem method_setToken (b : BoundToken) : (a.setToken b).method = a.method := by
  cases b <;> rfl

@[simp] theorem placement_setToken (b : BoundToken) : (a.setToken b).placement = a.placement := by
  cases b <;> rfl

/-- A token that is bound takes the place of all that was bound before. -/
@[simp] theorem setToken_setToken (b b' : BoundToken) :
    (a.setToken b).setToken b' = a.setToken b' := by
  cases b <;> cases b' <;> rfl

theorem credentials_eq (a : Accessor) : a.credentials =
    ⟨a.consumer.key, a.consumer.secret, a.token.token?, a.token.secret?⟩ := by
  rw [credentials, token]
  cases a.held <;> rfl

theorem token_credentials (a : Accessor) : a.credentials.token = a.token.token? :=
  congrArg Credentials.token a.credentials_eq

theorem hasAccessToken_eq (a : Accessor) : a.hasAccessToken = a.token.accessInfo?.isSome := by
  rw [hasAccessToken, token]
  cases a.held <;> rfl

theorem source_of_request {token secret : String}
    (bound : a.token = .request token secret source) : a.source = source := by
  rw [Accessor.token] at bound
  split at bound
  · cases bound
  · exact (BoundToken.request.inj bound).2.2
  · cases bound

theorem sessionHandle?_of_access (bound : a.token = .access info source) :
    a.sessionHandle? = info.sessionHandle := by
  rw [token] at bound
  split at bound
  · cases bound
  · cases bound
  · obtain ⟨rfl, -⟩ := BoundToken.access.inj bound
    rfl

theorem isExpired_eq (a : Accessor) (now : UInt64) :
    a.isExpired now = a.token.accessInfo?.any (·.isExpired now) := by
  rw [isExpired, hasAccessToken, token]
  cases a.held with
  | access token secret =>
    rw [HeldToken.isAccess, Bool.true_and]
    cases known : a.expires? <;> simp [BoundToken.accessInfo?, TokenInfo.isExpired]
  | _ => rfl

/-- The token that the caller's state carries: an access token before a request token. -/
def carriedToken (state : ClientState) : BoundToken :=
  match state.accessInfo?, state.requestToken with
  | some info, _ => .access info .clientState
  | none, some t => .request t (state.requestTokenSecret.getD "") .clientState
  | none, none => .none

def delegatedToken (store : Store) (args : FetchArguments) (t : SecurityToken)
    (state : ClientState) : Except Refusal BoundToken := do
  if args.tokenUse = .never then return .none
  if let some token := args.requestToken then
    return .request token (args.requestTokenSecret.getD "") .arguments
  if t.viewer.isSome then
    if let some info ← store.token? t args.service args.tokenName then
      return .access info .store
  return carriedToken state

/-- The accessor of a fetch. The state must belong to the viewer. -/
def build (store : Store) (args : FetchArguments) (t : SecurityToken) (services : Services)
    (state : ClientState) : Except Refusal Accessor := do
  match args.kind with
  | .signed =>
    return consumerOnly (← store.consumer t "" none) .get .uriQuery
  | .delegated =>
    let provider ← services.provider args.service
    let consumer ← store.consumer t args.service (some provider)
    let token ← delegatedToken store args t state
    return (consumerOnly consumer provider.request.method provider.request.placement).setToken token

end Accessor
end DelegatedFetch
