import DelegatedFetch.Proofs.Fetch.Generated
import DelegatedFetch.Proofs.Fetch.Continuity

/-!
# Calls without a token

A signed fetch, and a delegated one that wants no token, are signed by the
consumer alone. Such a call asks for the resource at most, once; and it goes the
same way whichever tokens are stored or carried, which it leaves as they are.

A caller's own header is passed on where it is not replaced. So a token that
is named there does travel with the request, although none is bound.
-/

namespace DelegatedFetch

theorem Store.eq_of_parts {store store' : Store} (consumers : store.consumers = store'.consumers)
    (defaultKey : store.defaultKey = store'.defaultKey) (tokens : store.tokens = store'.tokens) :
    store = store' := by
  cases store
  cases store'
  cases consumers
  cases defaultKey
  cases tokens
  rfl

/-- A response without what is told with it. -/
def Response.bare (r : Response) : Response := { r with metadata := .empty }

namespace Call

open Step

variable {c : Call} {s : Surroundings} {a : Accessor} {p q : Progress} {α β : Type} {x : Step α}

/-- What signs a call that uses no token. -/
def alone (c : Call) (store : Store) : Except Refusal Accessor :=
  Accessor.build store { c.args with tokenUse := .never } c.token c.services .empty

/-- No token is wanted, whatever the arguments name. -/
def TokenFree (c : Call) : Prop := c.args.kind = .signed ∨ c.args.tokenUse = .never

theorem alone_unbound {store : Store} (found : c.alone store = .ok a) : a.token = .none := by
  rw [alone] at found
  generalize own : ({ c.args with tokenUse := .never } : FetchArguments) = args at found
  have never : args.tokenUse = .never := own ▸ rfl
  cases kind : args.kind with
  | signed =>
    obtain ⟨-, unbound, -⟩ := Accessor.build_signed kind found
    exact unbound
  | delegated =>
    obtain ⟨_, -, -, -, -, chosen⟩ := Accessor.build_delegated kind found
    exact chosen.of_never never

/-- The consumer alone is what a call binds that wants no token, at any time. -/
theorem TokenFree.build_eq (free : c.TokenFree) (p : Progress) :
    Accessor.build p.store (c.arguments p) c.token c.services p.state = c.alone p.store := by
  obtain ⟨service, -, -⟩ := c.arguments_eq p
  rw [alone, Accessor.build, Accessor.build, c.arguments_kind p, service]
  cases kind : c.args.kind with
  | signed => rfl
  | delegated =>
    have never : (c.arguments p).tokenUse = .never := by
      rw [c.arguments_tokenUse]
      refine free.resolve_left fun signed => ?_
      cases kind.symm.trans signed
    rw [Accessor.delegatedToken, if_pos never]
    rfl

/-- Gets the resource with what is bound, and mends nothing. -/
def fetchAlone (c : Call) (a : Accessor) : Step (Option Response) := do
  let response ← c.fetchResource a
  match response.resourceFailure? false with
  | none => return some response
  | some failure => throw (.refused failure.refusal)

theorem deliver_alone (unbound : a.token = .none) (recovered : Bool) :
    c.deliver recovered a = do return .done (← c.fetchAlone a) := by
  have unused : a.hasAccessToken = false := by
    rw [Accessor.hasAccessToken_eq, unbound]
    rfl
  rw [deliver, fetchAlone, bind_assoc]
  congr 1
  funext response
  rw [unused]
  cases failed : response.resourceFailure? false with
  | none => rfl
  | some failure =>
    simp only [Response.not_recoverable failed, Bool.false_and]
    rfl

/-- An attempt that binds no token, and needs none, gets the resource. -/
theorem attempt_alone (recovered : Bool)
    (built : Accessor.build p.store (c.arguments p) c.token c.services p.state = .ok a)
    (unbound : a.token = .none) (enough : c.args.kind = .delegated → c.args.tokenUse ≠ .always) :
    c.attempt recovered p = c.deliver recovered a p := by
  rw [attempt, get_bind_run, built, ok_bind_run]
  cases kind : c.args.kind with
  | signed => rfl
  | delegated =>
    have fresh : a.isExpired p.clock.millis = false := by
      rw [Accessor.isExpired_eq, unbound]
      rfl
    change c.delegatedFetch recovered a p = _
    rw [delegatedFetch, bind_run, refresh_run (.inr fresh)]
    simp only [unbound, if_neg (enough kind)]

theorem loop_alone
    (built : Accessor.build p.store (c.arguments p) c.token c.services p.state = .ok a)
    (unbound : a.token = .none) (enough : c.args.kind = .delegated → c.args.tokenUse ≠ .always) :
    c.loop false p = c.fetchAlone a p := by
  rw [loop_eq, attempt_alone false built unbound enough, deliver_alone unbound, bind_run]
  rcases c.fetchAlone a p with ⟨stop | response, p'⟩
  · rfl
  · rfl

/-- A call that uses no token is one attempt to get the resource. -/
theorem TokenFree.run_eq (free : c.TokenFree) : c.run = (do
    ofExcept c.request.checkCaller
    ofExcept c.checkIdentity
    c.fetchAlone (← ofExcept (c.alone (← get).store))) := by
  have enough (kind : c.args.kind = .delegated) : c.args.tokenUse ≠ .always := by
    rw [free.resolve_left fun signed => nomatch kind.symm.trans signed]
    decide
  have attempts : c.loop false = (do c.fetchAlone (← ofExcept (c.alone (← get).store))) := by
    funext p
    rw [get_bind_run]
    have built := free.build_eq p
    cases found : c.alone p.store with
    | error r =>
      rw [found] at built
      rw [loop_eq, attempt, get_bind_run, built]
      rfl
    | ok a =>
      rw [found] at built
      exact loop_alone built (alone_unbound found) enough
  rw [run, attempts]

/-- The same progress with other tokens in the store, and another state of the caller. -/
def holding (p : Progress) (tokens : Table TokenKey TokenInfo) (state : ClientState) : Progress :=
  { p with store := { p.store with tokens }, state }

/-- A part of a call that neither sees nor changes the tokens in the store and the state. -/
def Blind (x : Step α) : Prop :=
  ∀ p tokens state, x (holding p tokens state) = ((x p).1, holding (x p).2 tokens state)

theorem Blind.leaves (h : Blind x) (p : Progress) :
    (x p).2.store.tokens = p.store.tokens ∧ (x p).2.state = p.state := by
  have same : x p = ((x p).1, holding (x p).2 p.store.tokens p.state) :=
    h p p.store.tokens p.state
  rw [same]
  exact ⟨rfl, rfl⟩

theorem blind_pure (a : α) : Blind (pure a) := fun _ _ _ => rfl

theorem blind_throw (stop : Stop) : Blind (throw stop : Step α) := fun _ _ _ => rfl

theorem blind_ofExcept (x : Except Refusal α) : Blind (ofExcept x) := by
  cases x with
  | ok a => exact blind_pure a
  | error r => exact blind_throw (.refused r)

theorem Blind.bind {f : α → Step β} (hx : Blind x) (hf : ∀ a, Blind (f a)) : Blind (x >>= f) := by
  intro p tokens state
  rw [bind_run, bind_run, hx p tokens state]
  rcases x p with ⟨stop | a, p'⟩
  · rfl
  · exact hf a p' tokens state

/-- The progress may be looked at, if what follows does not depend on the tokens that it holds. -/
theorem blind_get_bind {f : Progress → Step α}
    (sees : ∀ p tokens state, f (holding p tokens state) = f p) (hf : ∀ p, Blind (f p)) :
    Blind (get >>= f) := by
  intro p tokens state
  rw [get_bind_run, get_bind_run, sees]
  exact hf p p tokens state

theorem blind_send (purpose : Purpose) (signed : Request) : Blind (c.send purpose signed) := by
  intro p tokens state
  rw [send, get_bind_run, get_bind_run]
  simp only [set_bind_run, holding]
  cases (c.replies p.sent.length).outcome with
  | ok response => rfl
  | error text => rfl

theorem blind_sign (r : Request) (credentials : Credentials) (extra : Pairs)
    (placement : Placement) : Blind (sign r credentials extra placement) := by
  intro p tokens state
  rw [sign, get_bind_run, get_bind_run]
  simp only [set_bind_run, holding]
  cases (r.sign credentials extra placement p.clock p.entropy).1 with
  | ok signed => rfl
  | error refusal => rfl

theorem blind_cached? (key : Option String) : Blind (cached? key) := by
  rintro ⟨⟨clock, entropy, store, cache⟩, own, spent, url, sent⟩ tokens state
  cases key with
  | none => rfl
  | some key =>
    cases cache with
    | none => rfl
    | some cache => rfl

theorem blind_keep (key : Option String) (response : Response) : Blind (keep key response) := by
  intro p tokens state
  cases key with
  | none => rfl
  | some key => rfl

theorem blind_fetchResource (c : Call) (a : Accessor) : Blind (c.fetchResource a) := by
  rw [fetchResource]
  refine blind_get_bind (fun _ _ _ => rfl) fun p => (blind_cached? _).bind fun hit => ?_
  cases hit with
  | some hit => exact blind_pure hit
  | none =>
    exact (blind_sign _ _ _ _).bind fun signed => (blind_send _ signed).bind fun response =>
      (blind_keep _ response).bind fun _ => blind_pure response

theorem blind_fetchAlone (c : Call) (a : Accessor) : Blind (c.fetchAlone a) := by
  refine (blind_fetchResource c a).bind fun response => ?_
  split
  · exact blind_pure _
  · exact blind_throw _

/-- A call that uses no token neither sees nor changes any. -/
theorem TokenFree.blind (free : c.TokenFree) : Blind c.run := by
  rw [free.run_eq]
  refine (blind_ofExcept _).bind fun _ => (blind_ofExcept _).bind fun _ => ?_
  refine blind_get_bind (fun p tokens state => ?_) fun p =>
    (blind_ofExcept _).bind fun a => blind_fetchAlone c a
  have same : c.alone (holding p tokens state).store = c.alone p.store := rfl
  rw [same]

/-- A request for the resource, signed with what an accessor binds. -/
def SignedWith (c : Call) (a : Accessor) (e : Exchange) : Prop :=
  e.purpose = .resource ∧ a.placement.fits c.request = true ∧ ∃ stamp,
    c.request.signWith a.credentials (c.identityPairs a) a.placement stamp = .ok e.request

/-- The resource was asked for once, or not at all. -/
def AskedOnce (c : Call) (a : Accessor) (q p : Progress) : Prop :=
  p.sent = q.sent ∨ ∃ e, p.sent = q.sent ++ [e] ∧ c.SignedWith a e

theorem ensures_fetchResource : Ensures (· = q) (c.fetchResource a)
    (fun _ => AskedOnce c a q) fun _ => AskedOnce c a q := by
  rw [fetchResource]
  apply ensures_get_bind
  rintro q' rfl
  apply Ensures.bind (R := fun _ p => p.sent = q'.sent)
    (ensures_cached? fun p cache hit same _ => by rw [same])
  intro hit
  cases hit with
  | some hit => exact ensures_pure fun p same => .inl same
  | none =>
    apply Ensures.bind (R := fun signed p =>
      p.sent = q'.sent ∧ c.SignedWith a ⟨.resource, signed, none⟩)
      (ensures_sign (fun p signed stamp entropy same fits made => ⟨same, rfl, fits, stamp, made⟩)
        fun p refusal entropy same _ => .inl same)
    intro signed
    apply Ensures.bind (R := fun _ => AskedOnce c a q')
      (ensures_send (fun p response h _ => .inr ⟨_, congrArg (· ++ _) h.1, h.2⟩)
        fun p text h _ => .inr ⟨_, congrArg (· ++ _) h.1, h.2⟩)
    intro response
    exact Ensures.bind (R := fun _ => AskedOnce c a q') (ensures_keep fun p cache h _ => h)
      fun _ => ensures_pure fun p h => h

/-- The tokens in a request that was signed by the consumer alone are those in the caller's own
header, where that is not replaced. -/
theorem SignedWith.tokensIn_allPairs {e : Exchange} (h : c.SignedWith a e)
    (unbound : a.token = .none) (clean : c.request.checkCaller = .ok ()) :
    tokensIn e.request.allPairs =
      if a.placement = .authHeader then [] else tokensIn c.request.headerPairs := by
  obtain ⟨-, fits, stamp, made⟩ := h
  obtain ⟨fit, foreign⟩ := extraFit_of_names (c.names_of_identityPairs a)
  rw [Request.tokensIn_allPairs_signWith clean fit foreign fits made, Accessor.credentials_eq, unbound]
  exact List.append_nil _

/-- What a call may have sent that uses no token: nothing, or one request for the resource, signed
by the consumer alone. -/
def SentAlone (c : Call) (store : Store) (sent : List Exchange) : Prop :=
  sent = [] ∨ ∃ e a, sent = [e] ∧ c.alone store = .ok a ∧ a.token = .none ∧ c.SignedWith a e ∧
    tokensIn e.request.allPairs =
      if a.placement = .authHeader then [] else tokensIn c.request.headerPairs

theorem TokenFree.sentAlone_run (free : c.TokenFree) (s : Surroundings) :
    SentAlone c s.store (c.run (c.begun s)).2.sent := by
  have run : Ensures (· = c.begun s) c.run (fun _ p => SentAlone c s.store p.sent)
      fun _ p => SentAlone c s.store p.sent := by
    have nothing {p : Progress} (same : p = c.begun s) : SentAlone c s.store p.sent :=
      .inl (congrArg Progress.sent same)
    rw [free.run_eq]
    apply ensures_ofExcept_bind fun r _ p same => nothing same
    intro _ clean
    apply ensures_ofExcept_bind fun r _ p same => nothing same
    intro _ _
    apply ensures_get_bind
    rintro q rfl
    apply ensures_ofExcept_bind fun r _ p same => nothing same
    intro a found
    have once {p : Progress} (asked : AskedOnce c a (c.begun s) p) :
        SentAlone c s.store p.sent := by
      rcases asked with none | ⟨e, one, signed⟩
      · exact .inl none
      · have unbound := alone_unbound found
        exact .inr ⟨e, a, one, found, unbound, signed, signed.tokensIn_allPairs unbound clean⟩
    apply (ensures_fetchResource.weaken (fun _ h => h) (fun _ _ => once) fun _ _ => once).bind
    intro response
    split
    · exact ensures_pure fun _ h => h
    · exact ensures_throw fun _ h => h
  rcases ran : c.run (c.begun s) with ⟨stop | response, p⟩
  · exact run.stop rfl ran
  · exact run.answer rfl ran

theorem left_by_run (c : Call) (s : Surroundings) :
    (c.fetch s).2.sent = (c.run (c.begun s)).2.sent ∧
      (c.fetch s).2.store = (c.run (c.begun s)).2.store ∧
      (c.fetch s).2.state = (c.run (c.begun s)).2.state := by
  obtain ⟨entropy, left⟩ := c.fetch_progress s
  generalize c.run (c.begun s) = ran at left ⊢
  rw [left]
  exact ⟨rfl, rfl, rfl⟩

/-- Beside what is told, a caller gets what the attempts have come to. -/
theorem bare_finish (c c' : Call) (outcome : Except Stop (Option Response)) (p p' : Progress) :
    (c'.finish outcome p').1.map Response.bare = (c.finish outcome p).1.map Response.bare := by
  rcases outcome with (r | f) | response
  · rfl
  · rfl
  · cases response with
    | none => rfl
    | some response => rfl

end Call

open Call

namespace Visit

variable {v : Visit}

/-- The same visit amid other tokens in the store, by a caller who brings something else. -/
def amid (v : Visit) (tokens : Table TokenKey TokenInfo) (brings : Option String) : Visit where
  call := { v.call with args := { v.call.args with clientState := brings } }
  start := { v.start with store := { v.start.store with tokens } }

/-- What the caller gets: status, headers and body of a response, or why there is none. -/
def plainAnswer (v : Visit) : Except Failure Response :=
  (v.call.fetch v.start).1.map Response.bare

theorem run_amid (free : v.call.TokenFree) (tokens : Table TokenKey TokenInfo)
    (brings : Option String) :
    (v.amid tokens brings).call.run
        ((v.amid tokens brings).call.begun (v.amid tokens brings).start) =
      ((v.call.run (v.call.begun v.start)).1, holding (v.call.run (v.call.begun v.start)).2 tokens
        ((v.amid tokens brings).call.incomingState v.start.clock.millis)) := by
  have free' : (v.amid tokens brings).call.TokenFree := free
  have same : (v.amid tokens brings).call.run = v.call.run := by
    -- The state that is brought stands among the arguments, but none of these reads it there.
    have checked : (v.amid tokens brings).call.checkIdentity = v.call.checkIdentity := rfl
    have signer : (v.amid tokens brings).call.alone = v.call.alone := rfl
    have fetches : (v.amid tokens brings).call.fetchAlone = v.call.fetchAlone := rfl
    rw [free'.run_eq, free.run_eq, checked, signer, fetches]
    rfl
  rw [same]
  exact free.blind (v.call.begun v.start) tokens _

/-- A call that uses no token leaves the tokens that it finds, whatever else it comes to. -/
theorem leaves_tokens (free : v.call.TokenFree) :
    v.final.store = v.start.store ∧ v.final.state = v.call.incomingState v.start.clock.millis := by
  have ⟨_, store, state⟩ := v.call.left_by_run v.start
  have kept := free.blind.leaves (v.call.begun v.start)
  rw [← store, ← state, ← final] at kept
  have tokens : v.final.store.tokens = v.start.store.tokens := kept.1
  constructor
  · exact Store.eq_of_parts v.traced.consumers v.traced.defaultKey tokens
  · rw [kept.2, begun]

theorem sentAlone_final (free : v.call.TokenFree) :
    SentAlone v.call v.start.store v.final.sent := by
  rw [final, (v.call.left_by_run v.start).1]
  exact free.sentAlone_run v.start

/-- Over other tokens, and with another state, a call that uses no token sends the same and gets the
same. -/
theorem same_amid (free : v.call.TokenFree) (tokens : Table TokenKey TokenInfo)
    (brings : Option String) : (v.amid tokens brings).final.sent = v.final.sent ∧
      (v.amid tokens brings).plainAnswer = v.plainAnswer := by
  have ran := v.run_amid free tokens brings
  constructor
  · rw [final, final, (left_by_run _ _).1, (left_by_run _ _).1, ran, holding]
  · rw [plainAnswer, plainAnswer, fetch, fetch, ran]
    generalize v.call.run (v.call.begun v.start) = left
    exact bare_finish _ _ _ _ _

/-- The state that a call tells which uses no token is the one that it was brought. -/
theorem carried_of_told (free : v.call.TokenFree) {blob : String}
    (told : v.toldState? = some blob) : v.carried = v.call.incomingState v.start.clock.millis := by
  have kept := (leaves_tokens free).2
  obtain ⟨filled, -⟩ := sealed_of_told told
  rw [carried, kept] at filled ⊢
  rcases v.call.incomingState_cases v.start.clock.millis with blank | ⟨-, owner⟩
  · rw [blank] at filled
    simp [ClientState.empty] at filled
  · rw [Visit.viewer, ← owner]

/-- A call that uses no token asks for the resource once, or for nothing. The request is signed by
the consumer alone; the only tokens in it are those that the caller's own header names, where that
is not replaced. The store is left as it is. Request and answer are the same whatever tokens are
stored and whatever state is brought; and an answered call tells that state again as it was, unless
it has no token. -/
theorem uses_no_token (free : v.call.TokenFree) :
    SentAlone v.call v.start.store v.final.sent ∧
      v.final.store = v.start.store ∧
      (∀ tokens brings, (v.amid tokens brings).final.sent = v.final.sent ∧
        (v.amid tokens brings).plainAnswer = v.plainAnswer) ∧
      (∀ response, (v.call.fetch v.start).1 = .ok response →
        response.metadata.find? Report.stateKey =
            v.toldState?.or (v.resource?.bind (·.metadata.find? Report.stateKey)) ∧
          (v.toldState? = none ↔
            (v.call.incomingState v.start.clock.millis).requestToken = none ∧
              (v.call.incomingState v.start.clock.millis).accessToken = none)) ∧
      ∀ blob, v.toldState? = some blob → ∀ maxAge now,
        ClientState.decode v.call.policy.crypter (some blob) maxAge now =
          if now.toNat - v.final.clock.millis.toNat ≤ maxAge then
            v.call.incomingState v.start.clock.millis
          else .empty := by
  obtain ⟨store, state⟩ := leaves_tokens free
  refine ⟨sentAlone_final free, store, same_amid free, fun response answered => ?_,
    fun blob told maxAge now => ?_⟩
  · refine ⟨v.find?_stateKey answered, ?_⟩
    rw [toldState?_eq_none_iff answered, state]
  · rw [decode_of_told told, carried_of_told free told]

/-- A visit that wants no token, although it names a request token and the store has an access
token. -/
def plainVisit : Visit where
  call := { photoCall (fun _ => found) with
    args := { FetchArguments.delegated "photos" with
      tokenUse := .never, requestToken := some "approved" } }
  start := photoStart

/-- None of the tokens that it might use is in its request, or is lost. -/
theorem uses_no_token_plain : ∃ e, plainVisit.final.sent = [e] ∧ e.purpose = .resource ∧
    tokensIn e.request.allPairs = [] ∧ plainVisit.final.store = photoStore ∧
    ∀ tokens brings, (plainVisit.amid tokens brings).final.sent = [e] ∧
      (plainVisit.amid tokens brings).plainAnswer = plainVisit.plainAnswer := by
  obtain ⟨sent, store, same, -⟩ := uses_no_token (v := plainVisit) (.inr rfl)
  have one : plainVisit.final.sent.length = 1 := by decide +kernel
  have header : tokensIn plainVisit.call.request.headerPairs = [] := by decide +kernel
  rcases sent with none | ⟨e, a, sent, -, -, ⟨resource, -⟩, tokens⟩
  · rw [none] at one
    cases one
  · rw [header, ite_self] at tokens
    exact ⟨e, sent, resource, tokens, store, fun other brings => sent ▸ same other brings⟩

/-- A signed fetch whose own request has an authorization header, with a token in it. -/
def smugglingVisit : Visit where
  call := { smugglingCall .uriQuery with args := .signed }
  start := photoStart

/-- The one request of a signed fetch has the token that the caller's header names. -/
theorem sends_smuggled_token : smugglingVisit.call.args.kind = .signed ∧
    smugglingVisit.start.cache = none ∧ ∃ e, smugglingVisit.final.sent = [e] ∧
      "smuggled" ∈ tokensIn e.request.allPairs := by
  have one : smugglingVisit.final.sent.length = 1 := by decide +kernel
  have header : tokensIn smugglingVisit.call.request.headerPairs = ["smuggled"] := by
    decide +kernel
  rcases sentAlone_final (v := smugglingVisit) (.inl rfl) with
    none | ⟨e, a, sent, found, -, -, tokens⟩
  · rw [none] at one
    cases one
  · obtain rfl := Except.ok.inj found
    rw [header, if_neg nofun] at tokens
    exact ⟨rfl, rfl, e, sent, tokens ▸ List.mem_cons_self⟩

end Visit
end DelegatedFetch
