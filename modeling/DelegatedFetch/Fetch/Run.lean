import DelegatedFetch.Fetch.Dance
import DelegatedFetch.Fetch.Ensures
import DelegatedFetch.Fetch.Resource

/-!
# A whole call

A call is checked, attempted, and attempted once more if the first attempt
finds a token that is not good any more. At its end the caller's state is
sealed again and the outcome reported. Only a failure keeps the caller from
getting a response.
-/

namespace DelegatedFetch.Call

open Step

/-- How an attempt ends that is neither refused nor fails. -/
inductive Attempt where
  /-- With the resource; without a response, approval is pending. -/
  | done (response : Option Response)
  /-- With a token renewed or forgotten, so that another attempt is worth while. -/
  | retry

/-- Gives up a session that has expired: it is extended, or its token is forgotten. -/
def renew (c : Call) (a : Accessor) (handle : String) : Step (Option Accessor) := do
  match ← observing (c.extendSession a handle) with
  | .ok a => return some a
  | .error (.refused _) => do
    c.discardToken
    return none
  | .error stop => throw stop

/-- Mends what a rejected access token has broken: a session that has expired is renewed, any other
token is forgotten. -/
def recover (c : Call) (a : Accessor) (expired : Bool) : Step Unit := do
  match a.sessionHandle?.filter fun _ => expired with
  | some handle => discard (c.renew a handle)
  | none => c.discardToken

/-- Gets the resource with what is bound. A token that turns out not to be good any more is renewed
or forgotten for another attempt, unless the call has recovered already. -/
def deliver (c : Call) (recovered : Bool) (a : Accessor) : Step Attempt := do
  let response ← c.fetchResource a
  match response.resourceFailure? a.hasAccessToken with
  | none => return .done (some response)
  | some failure =>
    if failure.recoverable && !recovered then
      c.recover a failure.expired
      return .retry
    else throw (.refused failure.refusal)

/-- Trades the request token and gets the resource. A request token that cannot be traded is
forgotten; when the token alone was the cause, another attempt may follow. -/
def complete (c : Call) (recovered : Bool) (a : Accessor) : Step Attempt := do
  match ← observing (c.exchangeRequestToken a) with
  | .ok a => c.deliver recovered a
  | .error stop =>
    forgetRequestToken a
    if stop.isTokenFailure && !recovered then return .retry else throw stop

/-- A token that is known to have expired is renewed before it is used, unless the call has
recovered already: what a recovery brought is used as it is. -/
def refresh (c : Call) (recovered : Bool) (a : Accessor) : Step Accessor := do
  if !recovered && a.isExpired (← now) then
    match a.sessionHandle? with
    | some handle => return (← c.renew a handle).getD a.clearToken
    | none => return a
  else return a

def delegatedFetch (c : Call) (recovered : Bool) (a : Accessor) : Step Attempt := do
  let a ← c.refresh recovered a
  match a.token with
  | .none =>
    if c.args.tokenUse = .always then
      c.requestApproval a
      return .done none
    else c.deliver recovered a
  | .request _ _ _ => c.complete recovered a
  | .access _ _ => c.deliver recovered a

def attempt (c : Call) (recovered : Bool) : Step Attempt := do
  let p ← get
  let a ← ofExcept (Accessor.build p.store (c.arguments p) c.token c.services p.state)
  match c.args.kind with
  | .signed => c.deliver recovered a
  | .delegated => c.delegatedFetch recovered a

/-- What is signed about owner and viewer is known, and so is the viewer if a token is needed. -/
def checkIdentity (c : Call) : Except Refusal Unit :=
  if c.args.signOwner && c.token.owner.isNone then .error .ownerUnknown
  else if c.args.signViewer && c.token.viewer.isNone then .error .viewerUnknown
  else if c.args.kind = .delegated ∧ c.args.tokenUse = .always ∧ c.token.viewer.isNone then
    .error .tokenNeedsViewer
  else .ok ()

/-- A part of a call that asks for no other attempt. -/
def Concludes (x : Step Attempt) : Prop :=
  Ensures (fun _ => True) x (fun r _ => r ≠ .retry) fun _ _ => True

theorem deliver_concludes (c : Call) (a : Accessor) : Concludes (c.deliver true a) := by
  refine (ensures_true _).bind fun response => ?_
  split
  · exact ensures_pure fun _ _ => by simp
  · simp only [Bool.not_true, Bool.and_false, Bool.false_eq_true, if_false]
    exact ensures_throw fun _ _ => trivial

theorem complete_concludes (c : Call) (a : Accessor) : Concludes (c.complete true a) := by
  refine (ensures_true _).bind fun traded => ?_
  cases traded with
  | ok a => exact c.deliver_concludes a
  | error stop =>
    refine (ensures_true _).bind fun _ => ?_
    simp only [Bool.not_true, Bool.and_false, Bool.false_eq_true, if_false]
    exact ensures_throw fun _ _ => trivial

/-- An attempt of a call that has recovered before asks for no other. -/
theorem attempt_concludes (c : Call) : Concludes (c.attempt true) := by
  refine (ensures_true _).bind fun p => (ensures_true _).bind fun a => ?_
  split
  · exact c.deliver_concludes a
  · refine (ensures_true _).bind fun a => ?_
    split
    · split
      · exact (ensures_true _).bind fun _ => ensures_pure fun _ _ => by simp
      · exact c.deliver_concludes a
    · exact c.complete_concludes a
    · exact c.deliver_concludes a

/-- Attempts until one does not ask for another. A call recovers once, so the second attempt is the
last one. -/
def loop (c : Call) (recovered : Bool) : Step (Option Response) := fun p =>
  match _h : c.attempt recovered p with
  | (.ok (.done response), p) => (.ok response, p)
  | (.ok .retry, p) => c.loop true p
  | (.error stop, p) => (.error stop, p)
termination_by if recovered then 0 else 1
decreasing_by
  cases recovered with
  | false => decide
  | true => exact absurd rfl (c.attempt_concludes.answer trivial _h)

def run (c : Call) : Step (Option Response) := do
  ofExcept c.request.checkCaller
  ofExcept c.checkIdentity
  c.loop false

/-- The state that the caller brings; one that was issued to another viewer is dropped. -/
def incomingState (c : Call) (now : UInt64) : ClientState :=
  let s := ClientState.decode c.policy.crypter c.args.clientState c.policy.stateMaxAge now
  if s ≠ .empty ∧ s.owner ≠ c.token.viewer then .empty else s

/-- The state that the caller takes along, bound to the viewer. -/
def outgoingState (c : Call) (s : ClientState) : ClientState :=
  if s.requestToken.isNone && s.accessToken.isNone then .empty
  else { s with owner := c.token.viewer }

def respond (report : Report) : Option Response → Response
  | some response => report.attach response
  | none => report.toResponse

def sealedState (c : Call) (p : Progress) : Option String × Entropy :=
  (c.outgoingState p.state).encode c.policy.crypter p.clock.millis p.entropy

/-- Ends a call: the state is sealed and the report written, unless the call has failed. -/
def finish (c : Call) (outcome : Except Stop (Option Response)) (p : Progress) :
    Except Failure Response × Progress :=
  match outcome with
  | .error (.failed f) => (.error f, p)
  | .error (.refused r) => done (some r) none
  | .ok response => done none response
where
  done (error : Option Refusal) (response : Option Response) :
      Except Failure Response × Progress :=
    let (blob, entropy) := c.sealedState p
    let report : Report :=
      ⟨c.policy.sendTrace, error, p.approvalUrl.map Url.render, blob, p.sent.map Exchange.entry⟩
    (.ok (respond report response), { p with entropy })

def begun (c : Call) (s : Surroundings) : Progress where
  toSurroundings := s
  state := c.incomingState s.clock.millis

def fetch (c : Call) (s : Surroundings) : Except Failure Response × Progress :=
  let (outcome, p) := c.run (c.begun s)
  c.finish outcome p

end DelegatedFetch.Call
