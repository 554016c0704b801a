import DelegatedFetch.Fetch.Accessor
import DelegatedFetch.Fetch.Cache
import DelegatedFetch.Fetch.Reply
import DelegatedFetch.Fetch.Report
import DelegatedFetch.Signing.Sign

/-!
# The course of one call

A call has fixed parts: who asks for what, and what other hosts will answer.
While it runs, its progress changes: clock and random bytes, store and cache,
the caller's state, and the exchanges so far. A step of a call may stop it, by
a refusal, which the caller is told, or by a failure, which is returned.
Progress that was made before a step stops is kept.
-/

namespace DelegatedFetch

/-- Where approved access tokens are kept. -/
inductive TokenPersistence where
  /-- In the store, for the viewer. -/
  | server
  /-- In the sealed state that the caller carries. -/
  | client
  deriving DecidableEq, Repr

namespace TokenPersistence

def word : TokenPersistence → String
  | server => "server"
  | client => "client"

def name : TokenPersistence → String
  | server => "Server"
  | client => "Client"

def all : List TokenPersistence := [server, client]

end TokenPersistence

/-- What is common to all calls: how state is sealed, where tokens are kept, whether exchanges are
shown, and how many milliseconds state is good for. -/
structure FetchPolicy where
  crypter : Crypter
  persistence : TokenPersistence
  sendTrace : Bool
  stateMaxAge : Nat
  deriving DecidableEq

/-- What comes back for a request: a response or the reason why there is none, after some
milliseconds. -/
structure Reply where
  outcome : Except String Response
  delay : Int

/-- What an exchange with another host is for. -/
inductive Purpose where
  | requestToken
  | accessToken
  | extension
  | resource
  deriving DecidableEq, Repr

/-- The label of an exchange; the token endpoints are named by it, too. -/
def Purpose.label : Purpose → String
  | requestToken => "request token"
  | accessToken => "access token"
  | extension => "session extension"
  | resource => "resource"

/-- A request that was sent, and the response to it. -/
structure Exchange where
  purpose : Purpose
  request : Request
  response : Option Response

def Exchange.entry (e : Exchange) : TraceEntry := .of e.purpose.label e.request e.response

/-- The fixed parts of a call. The reply to the `n`th request is `replies n`. -/
structure Call where
  policy : FetchPolicy
  request : Request
  token : SecurityToken
  args : FetchArguments
  services : Services
  replies : Nat → Reply

/-- What a call finds when it begins and leaves when it ends: the time, a supply of random bytes,
the store and the cache. -/
structure Surroundings where
  clock : Clock
  entropy : Entropy
  store : Store
  cache : Option Cache

/-- What changes while a call runs. -/
structure Progress extends Surroundings where
  state : ClientState := .empty
  /-- The request token among the arguments is not to be used again. -/
  argumentTokenSpent : Bool := false
  approvalUrl : Option Url := none
  sent : List Exchange := []

/-- Why a call stops. -/
inductive Stop where
  | refused (refusal : Refusal)
  | failed (failure : Failure)
  deriving DecidableEq, Repr

/-- The token alone is what a call was stopped for. -/
def Stop.isTokenFailure : Stop → Bool
  | refused r => r.problem?.any Problem.isTokenFailure
  | failed _ => false

/-- A part of a call. -/
abbrev Step (α : Type) := ExceptT Stop (StateM Progress) α

namespace Step

def ofExcept {α : Type} : Except Refusal α → Step α
  | .ok a => pure a
  | .error r => throw (.refused r)

def modifyState (f : ClientState → ClientState) : Step Unit :=
  modify fun p => { p with state := f p.state }

def now : Step UInt64 := do return (← get).clock.millis

end Step

namespace Call

open Step

/-- The arguments of a call, without the request token if that is spent. -/
def arguments (c : Call) (p : Progress) : FetchArguments :=
  if p.argumentTokenSpent then { c.args with requestToken := none, requestTokenSecret := none }
  else c.args

def provider (c : Call) : Step Provider := ofExcept (c.services.provider c.args.service)

def send (c : Call) (purpose : Purpose) (signed : Request) : Step Response := do
  let p ← get
  let reply := c.replies p.sent.length
  let exchange : Exchange := ⟨purpose, signed, reply.outcome.toOption⟩
  set { p with clock := p.clock.advance reply.delay, sent := p.sent ++ [exchange] }
  match reply.outcome with
  | .ok response => return response
  | .error text => throw (.failed (.transport text))

def sign (r : Request) (credentials : Credentials) (extra : Pairs) (placement : Placement) :
    Step Request := do
  let p ← get
  let (signed, entropy) := r.sign credentials extra placement p.clock p.entropy
  set { p with entropy }
  ofExcept signed

def exchange (c : Call) (purpose : Purpose) (endpoint : Endpoint) (credentials : Credentials)
    (extra : Pairs) : Step Response := do
  let signed ← sign ⟨endpoint.method, endpoint.url, [], [], true⟩ credentials extra
    endpoint.placement
  c.send purpose signed

end Call
end DelegatedFetch
