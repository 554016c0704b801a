import DelegatedFetch.Proofs.Fetch.Continuity
import DelegatedFetch.Proofs.Fetch.Upkeep

/-!
# A state carries one token

A request token is got when there is no access token, and is given up for one.
So a state that a caller takes along has one of the two: a request token, or an
access token with its secret. Where access tokens are kept in the store, it never
has an access token; and where they are kept in the state, the store has none.

This holds of what calls tell, provided that callers bring what calls have told.
A request token among the arguments may come from elsewhere; it is in no state
until it is traded.
-/

namespace DelegatedFetch

/-- A state that calls tell, where access tokens are kept in a given place. -/
structure ClientState.OneToken (persistence : TokenPersistence) (state : ClientState) : Prop where
  apart : state.requestToken = none ∨ state.accessToken = none
  paired : state.accessToken ≠ none → state.accessTokenSecret ≠ none
  stored : persistence = .server → state.accessToken = none

namespace ClientState.OneToken

variable {persistence : TokenPersistence} {state : ClientState}

theorem empty : ClientState.empty.OneToken persistence :=
  ⟨.inl rfl, fun held => absurd rfl held, fun _ => rfl⟩

theorem clearAccessToken (state : ClientState) : state.clearAccessToken.OneToken persistence :=
  ⟨.inr rfl, fun held => absurd rfl held, fun _ => rfl⟩

theorem clearRequestToken (h : state.OneToken persistence) :
    state.clearRequestToken.OneToken persistence :=
  ⟨.inl rfl, h.paired, h.stored⟩

theorem setAccessToken (info : TokenInfo) (unrequested : state.requestToken = none) :
    (state.setAccessToken info).OneToken .client :=
  ⟨.inl unrequested, fun _ => nofun, nofun⟩

/-- A state with an access token has no request token. -/
theorem requestToken_eq_none (h : state.OneToken persistence) {info : TokenInfo}
    (held : state.accessInfo? = some info) : state.requestToken = none := by
  refine h.apart.resolve_right fun none => ?_
  rw [accessInfo?, none] at held
  cases held

end ClientState.OneToken

namespace Call

open Step

variable {c : Call} {s : Surroundings} {a : Accessor} {p p' q : Progress} {purpose : Purpose}
  {x : Exchange} {info : TokenInfo} {source : TokenSource} {g g' : Stage}

/-- What a call holds: a state with one token, and no access token in the store if those are kept in
the state. -/
structure Holds (c : Call) (p : Progress) : Prop where
  state : p.state.OneToken c.policy.persistence
  store : c.policy.persistence = .client → c.stored? p.store = none

/-- An access token that is kept in the state takes the place of a request token. -/
def Ripe (c : Call) (p : Progress) : Prop :=
  c.policy.persistence = .client → p.state.requestToken = none

theorem Holds.same (h : Holds c q) (store : p.store = q.store) (state : p.state = q.state) :
    Holds c p :=
  ⟨state ▸ h.state, store ▸ h.store⟩

theorem Holds.kept (h : Holds c p) (ripe : Ripe c p) (kept : Kept c info p source p') :
    Holds c p' ∧ Ripe c p' := by
  cases kept with
  | inStore server set =>
    refine ⟨⟨.clearAccessToken _, fun client => ?_⟩, fun client => ?_⟩
    · cases server.symm.trans client
    · cases server.symm.trans client
  | inState client =>
    exact ⟨⟨client ▸ .setAccessToken info (ripe client), h.store⟩, ripe⟩

theorem Holds.discarded (h : Holds c p) (discarded : Discarded c p p') : Holds c p' := by
  cases discarded with
  | stored removed => exact ⟨.clearAccessToken _, fun _ => stored?_removeToken removed⟩
  | carried => exact ⟨.clearAccessToken _, h.store⟩

theorem Holds.afterForgetting (h : Holds c p) (a : Accessor) : Holds c (afterForgetting a p) :=
  ⟨h.state.clearRequestToken, h.store⟩

theorem Holds.unanswered {stop : Stop} (h : Holds c q)
    (unanswered : Unanswered c s a purpose q stop p) : Holds c p := by
  cases unanswered with
  | unsigned still => exact h.same still.store still.state
  | unreached exchanged => exact h.same exchanged.store exchanged.state

/-- What is held when an access token was asked for. -/
def HoldsAfter (c : Call) : Except Stop Accessor → Progress → Prop
  | .ok _, p => Holds c p ∧ Ripe c p
  | .error _, p => Holds c p

theorem Holds.extended {handle : String} {outcome : Except Stop Accessor} (h : Holds c q)
    (ripe : Ripe c q) (extended : Extended c s a handle q outcome p) : HoldsAfter c outcome p := by
  cases extended with
  | unanswered unanswered => exact h.unanswered unanswered
  | refused exchanged | unkept exchanged => exact h.same exchanged.store exchanged.state
  | extended exchanged _ kept =>
    refine (h.same exchanged.store exchanged.state).kept (fun client => ?_) kept
    rw [exchanged.state]
    exact ripe client

theorem Holds.traded {outcome : Except Stop Accessor} (h : Holds c q)
    (traded : Traded c s a q outcome p) : HoldsAfter c outcome p := by
  cases traded with
  | foreign => exact h
  | unanswered unanswered => exact h.unanswered unanswered
  | refused exchanged => exact h.same exchanged.store exchanged.state
  | traded exchanged _ kept =>
    exact ((h.same exchanged.store exchanged.state).afterForgetting a).kept (fun _ => rfl) kept

theorem Holds.approved {outcome : Except Stop Unit} (h : Holds c q)
    (approved : Approved c s a q outcome p) : Holds c p := by
  cases approved with
  | foreign => exact h
  | unanswered unanswered => exact h.unanswered unanswered
  | refused exchanged => exact h.same exchanged.store exchanged.state
  | approved exchanged =>
    refine ⟨⟨.inr rfl, fun held => absurd rfl held, fun _ => rfl⟩, fun client => ?_⟩
    exact exchanged.store ▸ h.store client

theorem Holds.fetched {outcome : Except Stop Response} (h : Holds c q)
    (fetched : Fetched c s a q outcome p) : Holds c p ∧ p.state = q.state := by
  cases fetched with
  | cached still => exact ⟨h.same still.store still.state, still.state⟩
  | unanswered unanswered =>
    refine ⟨h.unanswered unanswered, ?_⟩
    cases unanswered with
    | unsigned still => exact still.state
    | unreached exchanged => exact exchanged.state
  | answered exchanged => exact ⟨h.same exchanged.store exchanged.state, exchanged.state⟩

/-- An access token that is carried is in the state. -/
theorem accessInfo?_of_carriedToken {state : ClientState}
    (carried : Accessor.carriedToken state = .access info source) :
    state.accessInfo? = some info := by
  rw [Accessor.carriedToken] at carried
  split at carried
  · rename_i held
    rw [held, (BoundToken.access.inj carried).1]
  · cases carried
  · cases carried

/-- Where access tokens are kept in the state, the one that is bound is in there, and so there is no
request token. -/
theorem Holds.ripe_of_build (h : Holds c p)
    (built : Accessor.build p.store (c.arguments p) c.token c.services p.state = .ok a)
    (access : a.token.IsAccess) : Ripe c p := by
  intro client
  obtain ⟨info, source, bound⟩ := access
  have same := c.arguments_kind p
  obtain ⟨service, tokenName, -⟩ := c.arguments_eq p
  cases kind : c.args.kind with
  | signed =>
    obtain ⟨-, unbound, -⟩ := Accessor.build_signed (same.trans kind) built
    cases unbound.symm.trans bound
  | delegated =>
    obtain ⟨_, -, -, -, -, chosen⟩ := Accessor.build_delegated (same.trans kind) built
    generalize a.token = b at bound chosen
    cases chosen with
    | unwanted | argument => cases bound
    | stored _ _ held =>
      -- The store is asked before the state, but here it has nothing for this call.
      rw [service, tokenName, ← stored?_eq_some_iff, h.store client] at held
      cases held
    | carried => exact h.state.requestToken_eq_none (accessInfo?_of_carriedToken bound)

theorem stored?_eq_none_of_blank {store : Store} (blank : ∀ key, store.tokens.find? key = none) :
    c.stored? store = none := by
  cases own : TokenKey.of c.token c.args.service c.args.tokenName with
  | error r =>
    rw [stored?, Store.token?, own]
    rfl
  | ok key => rw [stored?_of_key own, blank key]

/-- What holds at each stage: a state has one token; it is no request token, if an access token is
bound that may be extended or replaced. -/
def HoldsAt (c : Call) : Stage → Progress → Prop
  | .built _ a, p | .choosing _ a, p | .delivering _ a, p | .extending _ a _, p =>
    Holds c p ∧ (a.token.IsAccess → Ripe c p)
  | .attempting _, p | .forgetting _ _, p | .ended _, p => Holds c p

theorem HoldsAt.mended (h : Holds c p ∧ (a.token.IsAccess → Ripe c p)) (rejected : Bool) :
    HoldsAt c (.mended rejected a) p := by
  cases rejected with
  | true => exact h.1
  | false => exact h

theorem HoldsAt.move (reached : Reaches c s g q) (h : HoldsAt c g q) (move : c.Move g q g' p) :
    HoldsAt c g' p := by
  have sound := reached.sound
  have clean := reached.clean move
  cases move with
  | build built => exact ⟨h, h.ripe_of_build built⟩
  | unbuilt | sign | keep | expire | use => exact h
  | @extend _ a b handle _ _ ran =>
    obtain ⟨info, source, bound, -⟩ := sound.2.2.coherent.access sound.1
    have left : HoldsAfter c (.ok b) p :=
      h.1.extended (h.2 ⟨info, source, bound⟩) (extended_of_run sound.2 sound.1 ran)
    exact .mended ⟨left.1, fun _ => left.2⟩ _
  | unextended ran | unreached ran =>
    obtain ⟨info, source, bound, -⟩ := sound.2.2.coherent.access sound.1
    exact h.1.extended (h.2 ⟨info, source, bound⟩) (extended_of_run sound.2 sound.1 ran)
  | forget ran =>
    refine .mended ⟨Holds.discarded h (discarded_of_run ran), fun access => ?_⟩ _
    obtain ⟨info, source, bound⟩ := access
    cases bound
  | approve kind unbound _ ran => exact h.1.approved (approved_of_run sound kind unbound ran)
  | @trade _ a b _ _ unsettled ran =>
    have left : HoldsAfter c (.ok b) p :=
      h.1.traded (traded_of_run sound (sound.2.delegated unsettled) ran)
    exact ⟨left.1, fun _ => left.2⟩
  | @startOver a _ p stop unsettled ran | @untraded _ a _ p stop unsettled ran =>
    have left : HoldsAfter c (.error stop) p :=
      h.1.traded (traded_of_run sound (sound.2.delegated unsettled) ran)
    exact left.afterForgetting a
  | deliver ran | undelivered ran | reject ran | unfetched ran =>
    exact (h.1.fetched (fetched_of_run sound.2 clean sound.1 ran)).1
  | outlive ran =>
    obtain ⟨left, state⟩ := h.1.fetched (fetched_of_run sound.2 clean sound.1 ran)
    refine ⟨left, fun access client => ?_⟩
    rw [state]
    exact h.2 access client

theorem Reaches.holds (start : Holds c (c.begun s)) (h : Reaches c s g p) : HoldsAt c g p := by
  induction h with
  | unchecked | start => exact start
  | move before move ih => exact ih.move before move

/-- A call leaves one token in its state, if it has found no more. -/
theorem holds_fetch (start : Holds c (c.begun s)) : Holds c (c.fetch s).2 :=
  fetch_of_reaches (fun _ _ h => ⟨h.state, h.store⟩) fun _ _ reached => reached.holds start

end Call

open Call

variable {policy : FetchPolicy} {visits later : List Visit} {v : Visit} {store : Store}

/-- What has been told so far has one token each, and the store has none if the states have them. -/
structure Frugal (policy : FetchPolicy) (visits : List Visit) (store : Store) : Prop where
  told : ∀ v ∈ visits, v.final.state.OneToken policy.persistence
  store : policy.persistence = .client → ∀ key, store.tokens.find? key = none

theorem ClientState.OneToken.owner {state : ClientState} {persistence : TokenPersistence}
    (h : state.OneToken persistence) (owner : Option String) :
    ({ state with owner } : ClientState).OneToken persistence :=
  ⟨h.apart, h.paired, h.stored⟩

/-- What is told decodes to a state with one token, whenever it is read. -/
theorem oneToken_of_told (common : v.call.policy = policy)
    (left : v.final.state.OneToken policy.persistence) {blob : String}
    (told : v.toldState? = some blob) (maxAge : Nat) (now : UInt64) :
    (ClientState.decode policy.crypter (some blob) maxAge now).OneToken policy.persistence := by
  rcases decode_toldState? common told maxAge now with none | same
  · rw [none]
    exact .empty
  · rw [same]
    exact left.owner _

/-- A call begins with one token in its state. -/
theorem Frugal.incoming (frugal : Frugal policy visits store)
    (commons : ∀ u ∈ visits, u.call.policy = policy) (common : v.call.policy = policy)
    (brought : Brought policy.crypter visits v.call.args.clientState) (now : UInt64) :
    (v.call.incomingState now).OneToken policy.persistence := by
  rcases v.call.incomingState_cases now with blank | ⟨decoded, -⟩
  · rw [blank]
    exact .empty
  rw [common] at decoded
  rw [decoded]
  generalize v.call.args.clientState = state at brought
  cases brought with
  | nothing => exact .empty
  | foreign closed =>
    rw [ClientState.decode_of_openBlob_error closed]
    exact .empty
  | told mem told => exact oneToken_of_told (commons _ mem) (frugal.told _ mem) told _ _

theorem Frugal.visit (frugal : Frugal policy visits v.start.store)
    (commons : ∀ u ∈ visits, u.call.policy = policy) (common : v.call.policy = policy)
    (brought : Brought policy.crypter visits v.call.args.clientState) :
    Frugal policy (visits ++ [v]) v.final.store := by
  have start : Holds v.call (v.call.begun v.start) := by
    refine ⟨common ▸ frugal.incoming commons common brought _, fun client => ?_⟩
    exact stored?_eq_none_of_blank (frugal.store (common ▸ client))
  have left : Holds v.call v.final := holds_fetch start
  refine ⟨fun u mem => ?_, fun client key => ?_⟩
  · rcases List.mem_append.1 mem with earlier | last
    · exact frugal.told u earlier
    · rw [List.mem_singleton.1 last, ← common]
      exact left.state
  · by_cases own : TokenKey.of v.call.token v.call.args.service v.call.args.tokenName = .ok key
    · rw [← stored?_of_key own]
      exact left.store (common.symm ▸ client)
    · rw [v.traced.others key own]
      exact frugal.store client key

theorem Session.frugal (session : Session policy visits store) : Frugal policy visits store := by
  induction session with
  | start blank =>
    refine ⟨fun u mem => absurd mem List.not_mem_nil, fun _ key => ?_⟩
    rw [blank, Table.find?_empty]
  | visit before common brought ih => exact ih.visit before.policy_eq common brought

/-- In a session, what a call tells decodes to a state that has a request token or an access token,
not both; an access token comes with its secret, and there is none at all where access tokens are
kept in the store. What is told stands in the answer under its key, where the resource may have
brought metadata of its own if nothing is told. -/
theorem Session.tells_one_token (session : Session policy (visits ++ v :: later) store)
    {response : Response} (answered : (v.call.fetch v.start).1 = .ok response) :
    response.metadata.find? Report.stateKey =
        v.toldState?.or (v.resource?.bind (·.metadata.find? Report.stateKey)) ∧
      ∀ blob, v.toldState? = some blob → ∀ maxAge now,
        (ClientState.decode policy.crypter (some blob) maxAge now).OneToken policy.persistence := by
  have mem : v ∈ visits ++ v :: later := List.mem_append_right _ List.mem_cons_self
  refine ⟨v.find?_stateKey answered, fun blob told => ?_⟩
  exact oneToken_of_told (session.policy_eq v mem) (session.frugal.told v mem) told

/-- A trade leaves an access token in the state, where those are kept, and no request token. -/
theorem Session.tells_one_token_photos : ∃ response blob,
    (photosVisit.call.fetch photosVisit.start).1 = .ok response ∧
      response.metadata.find? Report.stateKey = some blob ∧
      ∃ state, ClientState.decode photosVisit.call.policy.crypter (some blob) 1000 0 = state ∧
        state.accessToken = some "granted" ∧ state.OneToken .client := by
  have ends : (photosVisit.call.fetch photosVisit.start).1.isOk = true := by decide +kernel
  have left : photosVisit.final.state.accessToken = some "granted" := by decide +kernel
  obtain ⟨response, answered⟩ := exists_of_isOk ends
  have session : Session photosVisit.call.policy ([] ++ photosVisit :: [mailVisit])
      mailVisit.final.store := session_of_services
  obtain ⟨attached, one⟩ := Session.tells_one_token session answered
  obtain ⟨blob, told⟩ : ∃ blob, photosVisit.toldState? = some blob := by
    rw [← Option.ne_none_iff_exists', Ne, Visit.toldState?_eq_none_iff answered, left]
    exact fun blank => nomatch blank.2
  rw [told] at attached
  have carried := Visit.decode_of_told told 1000 0
  rw [if_pos (by simp)] at carried
  refine ⟨response, blob, answered, attached, _, carried, left, carried ▸ one blob told 1000 0⟩

end DelegatedFetch
