import DelegatedFetch.Proofs.Fetch.Exchanges

/-!
# What becomes of an issued token

While a call runs, its store and its state have the token that was issued last,
or none, if that token was given up. A token is given up when a provider does
not accept it, or when it cannot be kept, since tokens are kept in the store and
there is no viewer.

This needs that new tokens come to lie where the call looks for them first. It
looks into the store first; so where the caller's state is to keep new tokens,
the store must have none under the key of the call.
-/

namespace DelegatedFetch.Call

variable {c : Call} {s : Surroundings} {a : Accessor} {p p' q : Progress} {e x : Exchange}
  {sent : List Exchange} {token : String}

/-- New tokens are kept where the call looks for a token first. -/
def OnePlace (c : Call) (s : Surroundings) : Prop :=
  c.policy.persistence = .server ∨ c.stored? s.store = none

/-- An issued token is not used any more: it could not be kept, or a provider did not accept it. -/
def GivenUp (c : Call) (sent : List Exchange) (token : String) : Prop :=
  (c.policy.persistence = .server ∧ c.token.viewer = none) ∨ Spurned c sent token

/-- What is used after some exchanges is the token that was issued last, or none if that one was
given up. -/
def Current (c : Call) (s : Surroundings) (sent : List Exchange) (used : Option String) : Prop :=
  c.OnePlace s → ∀ token, latestIssued sent = some token →
    used = some token ∨ used = none ∧ GivenUp c sent token

/-- A token under the key of the call was removed with a reason: up to some exchange, the provider
had not accepted it. Where the state keeps new tokens and had one by then, another token may have been
the reason. -/
def Removed (c : Call) (sent : List Exchange) (token : String) : Prop :=
  ∃ earlier later cause, sent = earlier ++ later ∧ Spurned c earlier cause ∧
    (cause = token ∨ c.policy.persistence = .client ∧ latestIssued earlier ≠ none)

/-- The call found a token with a session that it has no means to extend. -/
def Unextendable (c : Call) (s : Surroundings) (token : String) : Prop :=
  ¬ c.SignsAccess s ∧
    ∃ info, c.stored? s.store = some info ∧ info.token = token ∧ info.sessionHandle ≠ none

/-- If no token is under the key of the call, one that would stand there was removed with a
reason. -/
def Accounted (c : Call) (s : Surroundings) (sent : List Exchange) : Prop :=
  ∀ token, c.token.viewer ≠ none → c.standing? s sent = some token →
    Removed c sent token ∨ Unextendable c s token

/-- A request for the resource carries what is to be used after some exchanges, and no other
token. -/
def Fitting (c : Call) (s : Surroundings) (sent : List Exchange) (e : Exchange) : Prop :=
  e.purpose = .resource →
    ∃ used, (∀ token, c.Carries e token ↔ used = some token) ∧ Current c s sent used

/-- Each request for the resource carries what was to be used when it was sent. -/
def AllFitting (c : Call) (s : Surroundings) (sent : List Exchange) : Prop :=
  ∀ before e after, sent = before ++ e :: after → Fitting c s before e

theorem GivenUp.snoc (h : GivenUp c sent token) (silent : e.issued? = none) :
    GivenUp c (sent ++ [e]) token :=
  h.imp_right fun spurned => spurned.snoc silent

theorem Current.snoc {used : Option String} (h : Current c s sent used)
    (silent : e.issued? = none) : Current c s (sent ++ [e]) used := by
  intro onePlace token issued
  rw [latestIssued_snoc_of_none silent] at issued
  rcases h onePlace token issued with same | ⟨none, given⟩
  · exact .inl same
  · exact .inr ⟨none, given.snoc silent⟩

theorem Current.of_none {used : Option String} (none : latestIssued sent = none) :
    Current c s sent used := by
  intro _ token issued
  rw [none] at issued
  cases issued

theorem Current.of_issued (issued : e.issued? = some token) :
    Current c s (sent ++ [e]) (some token) := by
  intro _ other latest
  rw [latestIssued_snoc, issued, Option.some_or] at latest
  exact .inl latest

/-- A token that stands in the store is the one that was issued last, if any was. -/
theorem Current.of_standing (standing : c.standing? s sent = some token) :
    Current c s sent (some token) := by
  intro onePlace other latest
  rcases onePlace with server | empty
  · rw [standing?_of_server server, latest, Option.some_or] at standing
    exact .inl standing.symm
  · cases persistence : c.policy.persistence with
    | server =>
      rw [standing?_of_server persistence, latest, Option.some_or] at standing
      exact .inl standing.symm
    | client =>
      rw [standing?_of_client persistence, empty] at standing
      cases standing

theorem Removed.append (h : Removed c sent token) (more : List Exchange) :
    Removed c (sent ++ more) token := by
  obtain ⟨earlier, later, cause, rfl, reason⟩ := h
  exact ⟨earlier, later ++ more, cause, List.append_assoc _ _ _, reason⟩

theorem Accounted.snoc (h : Accounted c s sent) (silent : e.issued? = none) :
    Accounted c s (sent ++ [e]) := by
  intro token viewer standing
  rw [standing?_snoc_of_none silent] at standing
  exact (h token viewer standing).imp_left fun removed => removed.append [e]

theorem AllFitting.snoc (h : AllFitting c s sent) (last : Fitting c s sent e) :
    AllFitting c s (sent ++ [e]) :=
  forall_split_snoc h last

/-- What holds of a call at any time. -/
structure Orderly (c : Call) (s : Surroundings) (p : Progress) : Prop where
  answers : OnlySuccesses p.cache
  wanted : latestIssued p.sent ≠ none → c.args.kind = .delegated ∧ c.args.tokenUse ≠ .never ∧
    (c.arguments p).requestToken = none
  used : AllFitting c s p.sent

/-- The store and the state have the token that is to be used, and nothing was removed without a
reason. -/
structure Renewed (c : Call) (s : Surroundings) (p : Progress) : Prop extends Orderly c s p where
  stored : ∀ info, c.stored? p.store = some info → c.standing? s p.sent = some info.token ∧
    (latestIssued p.sent = none → c.stored? s.store = some info)
  carried : ∀ info, p.state.accessInfo? = some info → Current c s p.sent (some info.token)
  missing : c.stored? p.store = none → p.state.accessInfo? = none → Current c s p.sent none
  accounted : c.stored? p.store = none → Accounted c s p.sent

/-- The accessor in use has the token that is to be used, and the one in the store if that is it. -/
structure Ready (c : Call) (s : Surroundings) (a : Accessor) (p : Progress) : Prop where
  wanted : a.token ≠ .none → c.args.kind = .delegated ∧ c.args.tokenUse ≠ .never
  unnamed : a.token ≠ .none → (∀ t secret, a.token ≠ .request t secret .arguments) →
    (c.arguments p).requestToken = none
  current : a.token.IsSettled → Current c s p.sent a.token.token?
  entry : ∀ i source, a.token = .access i source → ∀ info, c.stored? p.store = some info →
    c.policy.persistence = .server ∨ latestIssued p.sent = none → i = info

/-- There is a reason to forget the token in use. -/
structure Forsaken (c : Call) (s : Surroundings) (p : Progress) : Prop extends Orderly c s p where
  lost : Current c s p.sent none
  accounted : Accounted c s p.sent

theorem renewed_begun (answers : OnlySuccesses s.cache) : Renewed c s (c.begun s) where
  answers := answers
  wanted issued := absurd rfl issued
  used before e after split := by simp [begun] at split
  stored info held := by
    refine ⟨?_, fun _ => held⟩
    rw [standing?_of_none (by rfl)]
    exact congrArg (Option.map (·.token)) held
  carried info held := .of_none rfl
  missing _ _ := .of_none rfl
  accounted none := by
    intro token viewer standing
    rw [standing?_of_none (by rfl)] at standing
    change (c.stored? s.store).map _ = _ at standing
    change c.stored? s.store = _ at none
    rw [none] at standing
    cases standing

/-- Nothing has changed but clock, random bytes, cache and what the caller is told. -/
structure Alike (q p : Progress) : Prop where
  store : p.store = q.store
  state : p.state = q.state
  spent : p.argumentTokenSpent = q.argumentTokenSpent
  sent : p.sent = q.sent

theorem Alike.arguments (alike : Alike q p) : c.arguments p = c.arguments q := by
  rw [Call.arguments, Call.arguments, alike.spent]

theorem Orderly.alike (h : Orderly c s q) (alike : Alike q p) (answers : OnlySuccesses p.cache) :
    Orderly c s p where
  answers := answers
  wanted := by
    rw [alike.sent, alike.arguments]
    exact h.wanted
  used := alike.sent ▸ h.used

theorem Renewed.alike (h : Renewed c s q) (alike : Alike q p) (answers : OnlySuccesses p.cache) :
    Renewed c s p where
  toOrderly := h.toOrderly.alike alike answers
  stored := by
    rw [alike.store, alike.sent]
    exact h.stored
  carried := by
    rw [alike.state, alike.sent]
    exact h.carried
  missing := by
    rw [alike.store, alike.state, alike.sent]
    exact h.missing
  accounted := by
    rw [alike.store, alike.sent]
    exact h.accounted

theorem Ready.alike (h : Ready c s a q) (alike : Alike q p) : Ready c s a p where
  wanted := h.wanted
  unnamed := by
    rw [alike.arguments]
    exact h.unnamed
  current := by
    rw [alike.sent]
    exact h.current
  entry := by
    rw [alike.store, alike.sent]
    exact h.entry

/-- An exchange has taken place: it is noted, and clock and random bytes may have changed. -/
structure Noted (q : Progress) (x : Exchange) (p : Progress) : Prop where
  store : p.store = q.store
  cache : p.cache = q.cache
  state : p.state = q.state
  spent : p.argumentTokenSpent = q.argumentTokenSpent
  sent : p.sent = q.sent ++ [x]

theorem Noted.arguments (noted : Noted q x p) : c.arguments p = c.arguments q := by
  rw [Call.arguments, Call.arguments, noted.spent]

theorem Orderly.noted (h : Orderly c s q) (noted : Noted q x p) (silent : x.issued? = none)
    (fitting : Fitting c s q.sent x) : Orderly c s p where
  answers := noted.cache ▸ h.answers
  wanted := by
    rw [noted.sent, latestIssued_snoc_of_none silent, noted.arguments]
    exact h.wanted
  used := noted.sent ▸ h.used.snoc fitting

/-- An exchange that issues nothing changes nothing of what is to be used. -/
theorem Renewed.noted (h : Renewed c s q) (noted : Noted q x p) (silent : x.issued? = none)
    (fitting : Fitting c s q.sent x) : Renewed c s p where
  toOrderly := h.toOrderly.noted noted silent fitting
  stored info held := by
    rw [noted.store] at held
    rw [noted.sent, standing?_snoc_of_none silent, latestIssued_snoc_of_none silent]
    exact h.stored info held
  carried info held := by
    rw [noted.state] at held
    rw [noted.sent]
    exact (h.carried info held).snoc silent
  missing gone none := by
    rw [noted.store] at gone
    rw [noted.state] at none
    rw [noted.sent]
    exact (h.missing gone none).snoc silent
  accounted gone := by
    rw [noted.store] at gone
    rw [noted.sent]
    exact (h.accounted gone).snoc silent

theorem Ready.noted (h : Ready c s a q) (noted : Noted q x p) (silent : x.issued? = none) :
    Ready c s a p where
  wanted := h.wanted
  unnamed := by
    rw [noted.arguments]
    exact h.unnamed
  current settled := by
    rw [noted.sent]
    exact (h.current settled).snoc silent
  entry i source access info held same := by
    rw [noted.store] at held
    rw [noted.sent, latestIssued_snoc_of_none silent] at same
    exact h.entry i source access info held same

/-- A token that a provider did not accept is forsaken. -/
theorem forsaken_of_rejects {info : TokenInfo} {source : TokenSource} (h : Renewed c s q)
    (ready : Ready c s a q) (access : a.token = .access info source) (noted : Noted q x p)
    (fitting : Fitting c s q.sent x) (rejects : x.Rejects)
    (carries : c.Carries x info.token) : Forsaken c s p := by
  have silent := rejects.issued?_eq_none
  have spurned : Spurned c (q.sent ++ [x]) info.token := .last rejects carries
  have current := ready.current (access ▸ BoundToken.isSettled_access info source)
  rw [access] at current
  refine ⟨h.toOrderly.noted noted silent fitting, ?_, ?_⟩
  · rw [noted.sent]
    intro onePlace token issued
    rw [latestIssued_snoc_of_none silent] at issued
    rcases current onePlace token issued with same | ⟨none, -⟩
    · obtain rfl := Option.some.inj same
      exact .inr ⟨rfl, .inr spurned⟩
    · cases none
  · cases held : c.stored? q.store with
    | none =>
      rw [noted.sent]
      exact (h.accounted held).snoc silent
    | some found =>
      rw [noted.sent]
      intro token viewer standing
      rw [standing?_snoc_of_none silent, (h.stored found held).1] at standing
      obtain rfl := Option.some.inj standing
      refine .inl ⟨q.sent ++ [x], [], info.token, (List.append_nil _).symm, spurned, ?_⟩
      by_cases same : c.policy.persistence = .server ∨ latestIssued q.sent = none
      · exact .inl (by rw [ready.entry info source access found held same])
      · rw [not_or] at same
        refine .inr ⟨?_, by rw [latestIssued_snoc_of_none silent]; exact same.2⟩
        cases persistence : c.policy.persistence with
        | server => exact absurd persistence same.1
        | client => rfl

/-- A token whose session the call has no means to extend is forsaken. -/
theorem forsaken_of_unsigned {info : TokenInfo} {source : TokenSource} (h : Renewed c s q)
    (signed : AllSigned c s q.sent) (ready : Ready c s a q) (access : a.token = .access info source)
    (session : info.sessionHandle ≠ none) (unsigned : ¬ c.SignsAccess s) (alike : Alike q p)
    (cache : p.cache = q.cache) : Forsaken c s p := by
  have silent : latestIssued q.sent = none := by
    cases issued : latestIssued q.sent with
    | none => rfl
    | some token => exact absurd (signed.signsAccess issued) unsigned
  refine ⟨h.toOrderly.alike alike (cache ▸ h.answers), ?_, ?_⟩
  · rw [alike.sent]
    exact .of_none silent
  · rw [alike.sent]
    cases held : c.stored? q.store with
    | none => exact h.accounted held
    | some found =>
      obtain ⟨stands, unchanged⟩ := h.stored found held
      obtain rfl := ready.entry info source access found held (.inr silent)
      intro token viewer standing
      rw [stands] at standing
      exact .inr ⟨unsigned, info, unchanged silent, Option.some.inj standing, session⟩

/-- One more exchange has issued a token, which is about to be kept. -/
structure Issuing (c : Call) (q : Progress) (x : Exchange) (token : String) (p : Progress) :
    Prop where
  wanted : c.args.kind = .delegated ∧ c.args.tokenUse ≠ .never
  unnamed : (c.arguments p).requestToken = none
  store : p.store = q.store
  cache : p.cache = q.cache
  sent : p.sent = q.sent ++ [x]
  purpose : x.purpose ≠ .resource
  issued : x.issued? = some token

theorem Issuing.latest (issuing : Issuing c q x token p) : latestIssued p.sent = some token := by
  rw [issuing.sent, latestIssued_snoc, issuing.issued, Option.some_or]

theorem Issuing.current (issuing : Issuing c q x token p) : Current c s p.sent (some token) := by
  rw [issuing.sent]
  exact .of_issued issuing.issued

theorem Issuing.orderly (issuing : Issuing c q x token p) (h : Orderly c s q) : Orderly c s p where
  answers := issuing.cache ▸ h.answers
  wanted _ := ⟨issuing.wanted.1, issuing.wanted.2, issuing.unnamed⟩
  used := issuing.sent ▸ h.used.snoc fun resource => absurd resource issuing.purpose

theorem Issuing.keptInStore {info : TokenInfo} {store : Store}
    (issuing : Issuing c q x info.token p) (h : Renewed c s q) (server : c.policy.persistence = .server)
    (set : p.store.setToken c.token c.args.service c.args.tokenName info = .ok store) :
    Renewed c s { p with store, state := p.state.clearAccessToken } := by
  have orderly := issuing.orderly h.toOrderly
  have held : c.stored? store = some info := stored?_setToken set
  refine ⟨⟨orderly.answers, orderly.wanted, orderly.used⟩, fun found same => ?_, nofun,
    fun gone => ?_, fun gone => ?_⟩
  · obtain rfl := Option.some.inj (held.symm.trans same)
    refine ⟨?_, fun silent => absurd (issuing.latest.symm.trans silent) nofun⟩
    rw [standing?_of_server server]
    change (latestIssued p.sent).or _ = _
    rw [issuing.latest, Option.some_or]
  · exact absurd (held.symm.trans gone) nofun
  · exact absurd (held.symm.trans gone) nofun

/-- What the state keeps changes nothing under the key of the call. -/
theorem Issuing.keptInState {info : TokenInfo} (issuing : Issuing c q x info.token p)
    (h : Renewed c s q) (client : c.policy.persistence = .client) :
    Renewed c s { p with state := p.state.setAccessToken info } := by
  have orderly := issuing.orderly h.toOrderly
  have stands : c.standing? s p.sent = c.standing? s q.sent := by
    rw [standing?_of_client client, standing?_of_client client]
  refine ⟨⟨orderly.answers, orderly.wanted, orderly.used⟩, fun found same => ?_,
    fun found same => ?_, nofun, fun gone => ?_⟩
  · change c.stored? p.store = some found at same
    rw [issuing.store] at same
    exact ⟨stands.trans (h.stored found same).1,
      fun silent => absurd (issuing.latest.symm.trans silent) nofun⟩
  · rw [ClientState.accessInfo?_setAccessToken] at same
    obtain rfl := Option.some.inj same
    exact issuing.current
  · change c.stored? p.store = none at gone
    rw [issuing.store] at gone
    intro token viewer standing
    have removed := h.accounted gone token viewer (stands.symm.trans standing)
    exact removed.imp_left fun removed => issuing.sent ▸ removed.append [x]

/-- A token that was issued and kept is the one to be used. -/
theorem Issuing.kept {info : TokenInfo} {source : TokenSource}
    (issuing : Issuing c q x info.token p) (h : Renewed c s q) (kept : Kept c info p source p') :
    Renewed c s p' ∧ Ready c s (a.setAccessToken info source) p' := by
  cases kept with
  | inStore server set =>
    refine ⟨issuing.keptInStore h server set, ?_⟩
    refine ⟨fun _ => issuing.wanted, fun _ _ => issuing.unnamed, fun _ => issuing.current, ?_⟩
    intro i source same found stored _
    cases same
    exact Option.some.inj ((stored?_setToken set).symm.trans stored)
  | inState client =>
    refine ⟨issuing.keptInState h client, ?_⟩
    refine ⟨fun _ => issuing.wanted, fun _ _ => issuing.unnamed, fun _ => issuing.current, ?_⟩
    rintro i source - found - (server | silent)
    · exact absurd (client.symm.trans server) nofun
    · exact absurd (issuing.latest.symm.trans silent) nofun

/-- A token that was issued but cannot be kept is forsaken. -/
theorem Issuing.forsaken (issuing : Issuing c q x token p) (h : Renewed c s q)
    (server : c.policy.persistence = .server) (stranger : c.token.viewer = none) :
    Forsaken c s p where
  toOrderly := issuing.orderly h.toOrderly
  lost _ _ _ := .inr ⟨rfl, .inl ⟨server, stranger⟩⟩
  accounted _ viewer := absurd stranger viewer

/-- There is no token under the key of the call, and none in the state. -/
def Gone (c : Call) (p : Progress) : Prop :=
  c.stored? p.store = none ∧ p.state.clearAccessToken = p.state

/-- After a token was forgotten, it is in neither place. -/
theorem Discarded.gone (discarded : Discarded c p p') : Gone c p' := by
  cases discarded with
  | stored removed => exact ⟨stored?_removeToken removed, rfl⟩
  | carried stranger => exact ⟨stored?_eq_none_of_stranger stranger _, rfl⟩

theorem accessInfo?_eq_none_of_cleared {state : ClientState}
    (cleared : state.clearAccessToken = state) : state.accessInfo? = none := by
  rw [← cleared]
  rfl

/-- After a token was forgotten for a reason, there is none to be used. -/
theorem Forsaken.discarded (h : Forsaken c s p) (discarded : Discarded c p p') :
    Renewed c s p' ∧ Ready c s a.clearToken p' := by
  obtain ⟨gone, cleared⟩ := discarded.gone
  replace cleared := accessInfo?_eq_none_of_cleared cleared
  have orderly : Orderly c s p' := by cases discarded <;> exact ⟨h.answers, h.wanted, h.used⟩
  have same := discarded.sent
  constructor
  · refine ⟨orderly, fun info held => ?_, fun info held => ?_, fun _ _ => same ▸ h.lost,
      fun _ => same ▸ h.accounted⟩
    · rw [gone] at held
      cases held
    · rw [cleared] at held
      cases held
  · exact ⟨fun bound => absurd rfl bound, fun bound => absurd rfl bound, fun _ => same ▸ h.lost,
      nofun⟩

/-- Where no token is to be used, the state may lose its own. -/
theorem Renewed.cleared {state : ClientState} (h : Renewed c s p) (lost : Current c s p.sent none)
    (cleared : state.accessInfo? = none) : Renewed c s { p with state } where
  answers := h.answers
  wanted := h.wanted
  used := h.used
  stored := h.stored
  carried _ held := absurd (cleared.symm.trans held) (by simp)
  missing _ _ := lost
  accounted := h.accounted

theorem Renewed.afterForgetting (h : Renewed c s p) (a : Accessor) :
    Renewed c s (afterForgetting a p) where
  answers := h.answers
  wanted issued := by
    obtain ⟨kind, wanted, unnamed⟩ := h.wanted issued
    exact ⟨kind, wanted, requestToken_afterForgetting (.inr unnamed)⟩
  used := h.used
  stored := h.stored
  carried := h.carried
  missing := h.missing
  accounted := h.accounted

/-- Nothing was issued to a call that wants no token. -/
theorem Orderly.latestIssued_eq_none (h : Orderly c s p)
    (unwanted : c.args.kind = .signed ∨ c.args.tokenUse = .never) : latestIssued p.sent = none := by
  cases issued : latestIssued p.sent with
  | none => rfl
  | some token =>
    obtain ⟨kind, wanted, -⟩ := h.wanted (by simp [issued])
    rcases unwanted with signed | never
    · exact absurd (kind.symm.trans signed) (by simp)
    · exact absurd never wanted

/-- An accessor that is built without a token needs none. -/
theorem ready_of_unbound (unbound : a.token = .none) (current : Current c s p.sent none) :
    Ready c s a p where
  wanted bound := absurd unbound bound
  unnamed bound := absurd unbound bound
  current _ := by
    rw [unbound]
    exact current
  entry i source access := absurd (unbound.symm.trans access) (by simp)

/-- An accessor is built with the token that is to be used. -/
theorem ready_of_build (h : Renewed c s p)
    (built : Accessor.build p.store (c.arguments p) c.token c.services p.state = .ok a) :
    Ready c s a p := by
  have same := c.arguments_kind p
  cases kind : c.args.kind with
  | signed =>
    obtain ⟨-, unbound, -⟩ := Accessor.build_signed (same.trans kind) built
    exact ready_of_unbound unbound (.of_none (h.latestIssued_eq_none (.inl kind)))
  | delegated =>
    obtain ⟨provider, -, -, -, -, chosen⟩ := Accessor.build_delegated (same.trans kind) built
    obtain ⟨service, tokenName, -⟩ := c.arguments_eq p
    have use := c.arguments_tokenUse p
    generalize bound : a.token = b at chosen
    cases chosen with
    | unwanted never =>
      exact ready_of_unbound bound (.of_none (h.latestIssued_eq_none (.inr (use ▸ never))))
    | argument wanted named =>
      refine ⟨fun _ => ⟨kind, use ▸ wanted⟩, fun _ other => absurd bound (other _ _),
        fun settled => absurd bound (settled _ _ _), ?_⟩
      exact fun i source access => absurd (bound.symm.trans access) (by simp)
    | @stored info wanted unnamed held =>
      rw [service, tokenName, ← stored?_eq_some_iff] at held
      refine ⟨fun _ => ⟨kind, use ▸ wanted⟩, fun _ _ => unnamed, fun _ => ?_, ?_⟩
      · rw [bound]
        exact .of_standing (h.stored info held).1
      · intro i source access found stored _
        cases bound.symm.trans access
        exact Option.some.inj (held.symm.trans stored)
    | carried wanted unnamed missing =>
      have gone : c.stored? p.store = none := by
        cases held : c.stored? p.store with
        | none => rfl
        | some info =>
          rw [stored?_eq_some_iff, ← service, ← tokenName] at held
          exact absurd held (missing info)
      rw [Accessor.carriedToken] at bound
      split at bound
      · rename_i held
        refine ⟨fun _ => ⟨kind, use ▸ wanted⟩, fun _ _ => unnamed, fun _ => ?_,
          fun _ _ _ found stored => ?_⟩
        · rw [bound]
          exact h.carried _ held
        · exact absurd (gone.symm.trans stored) (by simp)
      · refine ⟨fun _ => ⟨kind, use ▸ wanted⟩, fun _ _ => unnamed,
          fun settled => absurd bound (settled _ _ _), ?_⟩
        exact fun i source access => absurd (bound.symm.trans access) (by simp)
      · rename_i none _
        exact ready_of_unbound bound (h.missing gone none)

end DelegatedFetch.Call
