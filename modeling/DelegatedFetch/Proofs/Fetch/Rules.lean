import DelegatedFetch.Fetch.Run
import DelegatedFetch.Proofs.Signing.Agreement

/-!
# What each part of a call changes

One rule for each part of a call that reads or changes its progress. A rule
asks what has to hold of the progress that the part leaves, in each way in
which the part can end; whatever is to be shown of a whole call follows from
these, and no part is looked into again.
-/

namespace DelegatedFetch.Call

open Step

variable {c : Call} {P : Progress → Prop} {E : Stop → Progress → Prop}

/-- The progress after a request was sent: time has passed, and the exchange is noted, whether or
not a response came. -/
def afterSend (c : Call) (purpose : Purpose) (signed : Request) (p : Progress) : Progress :=
  { p with
    clock := p.clock.advance (c.replies p.sent.length).delay
    sent := p.sent ++ [⟨purpose, signed, (c.replies p.sent.length).outcome.toOption⟩] }

theorem ensures_send {purpose : Purpose} {signed : Request} {Q : Response → Progress → Prop}
    (answered : ∀ p response, P p → (c.replies p.sent.length).outcome = .ok response →
      Q response (c.afterSend purpose signed p))
    (failed : ∀ p text, P p → (c.replies p.sent.length).outcome = .error text →
      E (.failed (.transport text)) (c.afterSend purpose signed p)) :
    Ensures P (c.send purpose signed) Q E := by
  apply ensures_get_bind
  intro q hq
  apply Ensures.bind (R := fun _ p => p = c.afterSend purpose signed q)
    (fun p hp => hp ▸ rfl)
  intro _
  split
  · rename_i response outcome
    exact ensures_pure fun p hp => hp ▸ answered q response hq outcome
  · rename_i text outcome
    exact ensures_throw fun p hp => hp ▸ failed q text hq outcome

theorem ensures_sign {r : Request} {credentials : Credentials} {extra : Pairs}
    {placement : Placement} {Q : Request → Progress → Prop}
    (signed : ∀ p signed stamp entropy, P p → placement.fits r = true →
      r.signWith credentials extra placement stamp = .ok signed → Q signed { p with entropy })
    (refused : ∀ p refusal entropy, P p →
      (r.sign credentials extra placement p.clock p.entropy).1 = .error refusal →
        E (.refused refusal) { p with entropy }) :
    Ensures P (sign r credentials extra placement) Q E := by
  apply ensures_get_bind
  intro q hq
  refine Ensures.bind (R := fun _ p => p =
    { q with entropy := (r.sign credentials extra placement q.clock q.entropy).2 })
    (fun p hp => hp ▸ rfl) fun _ => ensures_ofExcept (fun a made p hp => ?_) fun e unmade p hp => ?_
  · obtain ⟨fits, with_⟩ := Request.signWith_of_sign made
    exact hp ▸ signed q a _ _ hq fits with_
  · exact hp ▸ refused q e _ hq unmade

theorem ensures_modifyState {f : ClientState → ClientState} {Q : Unit → Progress → Prop}
    (h : ∀ p, P p → Q () { p with state := f p.state }) : Ensures P (modifyState f) Q E :=
  ensures_modify h

/-- The progress after a new access token was kept. -/
inductive Kept (c : Call) (info : TokenInfo) (p : Progress) : TokenSource → Progress → Prop
  | inStore {store : Store} (server : c.policy.persistence = .server)
      (set : p.store.setToken c.token c.args.service c.args.tokenName info = .ok store) :
      Kept c info p .store { p with store, state := p.state.clearAccessToken }
  | inState (client : c.policy.persistence = .client) :
      Kept c info p .clientState { p with state := p.state.setAccessToken info }

theorem Kept.sent {info : TokenInfo} {source : TokenSource} {p p' : Progress}
    (kept : Kept c info p source p') : p'.sent = p.sent := by
  cases kept with
  | inStore => rfl
  | inState => rfl

theorem Kept.source_ne_none {info : TokenInfo} {source : TokenSource} {p p' : Progress}
    (kept : Kept c info p source p') : source ≠ .none := by
  cases kept with
  | inStore => nofun
  | inState => nofun

theorem Kept.clock {info : TokenInfo} {source : TokenSource} {p p' : Progress}
    (kept : Kept c info p source p') : p'.clock = p.clock := by
  cases kept with
  | inStore => rfl
  | inState => rfl

theorem Kept.requestToken {info : TokenInfo} {source : TokenSource} {p p' : Progress}
    (kept : Kept c info p source p') : p'.state.requestToken = p.state.requestToken := by
  cases kept with
  | inStore => rfl
  | inState => rfl

/-- A new access token can be kept, unless it is to be stored and there is no viewer. -/
theorem ensures_persist {info : TokenInfo} {Q : TokenSource → Progress → Prop}
    (kept : ∀ p p' source, P p → Kept c info p source p' → Q source p')
    (refused : ∀ p refusal, P p → c.policy.persistence = .server → c.token.viewer = none →
      E (.refused refusal) p) :
    Ensures P (c.persist info) Q E := by
  rw [persist]
  split
  · rename_i server
    apply ensures_get_bind
    intro q hq
    apply Ensures.bind (R := fun store p => p = q ∧
      q.store.setToken c.token c.args.service c.args.tokenName info = .ok store)
      (ensures_ofExcept (fun store set p hp => ⟨hp, set⟩)
        fun r unset p hp => hp ▸ refused q r hq server (TokenKey.viewer_of_map_error unset))
    intro store
    refine Ensures.bind (R := fun _ p => Q .store { p with state := p.state.clearAccessToken })
      (ensures_modify fun p hp => ?_) fun _ => ?_
    · obtain ⟨rfl, set⟩ := hp
      exact kept p _ _ hq (.inStore server set)
    · exact Ensures.bind (ensures_modifyState (Q := fun _ => Q .store) fun p hp => hp)
        fun _ => ensures_pure fun p hp => hp
  · rename_i client
    refine Ensures.bind (R := fun _ => Q .clientState) (ensures_modifyState fun p hp => ?_)
      fun _ => ensures_pure fun p hp => hp
    exact kept p _ _ hp (.inState client)

/-- The progress after the viewer's access token was forgotten; without a viewer, the store has none
to forget. -/
inductive Discarded (c : Call) (p : Progress) : Progress → Prop
  | stored {store : Store}
      (removed : p.store.removeToken c.token c.args.service c.args.tokenName = .ok store) :
      Discarded c p { p with store, state := p.state.clearAccessToken }
  | carried (stranger : c.token.viewer = none) :
      Discarded c p { p with state := p.state.clearAccessToken }

theorem Discarded.sent {p p' : Progress} (discarded : Discarded c p p') : p'.sent = p.sent := by
  cases discarded with
  | stored => rfl
  | carried => rfl

theorem Discarded.requestToken {p p' : Progress} (discarded : Discarded c p p') :
    p'.state.requestToken = p.state.requestToken := by
  cases discarded with
  | stored => rfl
  | carried => rfl

/-- Forgetting never stops: where there is a viewer, the store has a key for its token. -/
theorem ensures_discardToken {Q : Unit → Progress → Prop}
    (discarded : ∀ p p', P p → Discarded c p p' → Q () p') : Ensures P c.discardToken Q E := by
  rw [discardToken]
  split
  · rename_i known
    apply ensures_get_bind
    intro q hq
    have removable (r : Refusal) :
        q.store.removeToken c.token c.args.service c.args.tokenName ≠ .error r := by
      intro unremoved
      rw [TokenKey.viewer_of_map_error unremoved] at known
      cases known
    apply Ensures.bind (R := fun store p => p = q ∧
      q.store.removeToken c.token c.args.service c.args.tokenName = .ok store)
      (ensures_ofExcept (fun store removed p hp => ⟨hp, removed⟩)
        fun r unremoved => absurd unremoved (removable r))
    intro store
    refine Ensures.bind (R := fun _ p => Q () { p with state := p.state.clearAccessToken })
      (ensures_modify fun p hp => ?_) fun _ => ensures_modifyState fun p hp => hp
    obtain ⟨rfl, removed⟩ := hp
    exact discarded p _ hq (.stored removed)
  · rename_i stranger
    have none : c.token.viewer = none := by simpa using stranger
    exact ensures_modifyState fun p hp => discarded p _ hp (.carried none)

/-- The progress after the request token of an accessor was forgotten. -/
def afterForgetting (a : Accessor) (p : Progress) : Progress :=
  { p with
    argumentTokenSpent := p.argumentTokenSpent || (a.source = .arguments : Bool)
    state := p.state.clearRequestToken }

/-- No request token is left among the arguments once it was forgotten, or if there was none. -/
theorem requestToken_afterForgetting {a : Accessor} {p : Progress}
    (h : a.source = .arguments ∨ (c.arguments p).requestToken = none) :
    (c.arguments (afterForgetting a p)).requestToken = none := by
  rw [arguments] at h ⊢
  rcases h with bound | unnamed
  · simp [afterForgetting, bound]
  · by_cases spent : p.argumentTokenSpent = true
    · simp [afterForgetting, spent]
    · simp only [spent] at unnamed
      split
      · rfl
      · exact unnamed

theorem ensures_forgetRequestToken {a : Accessor} {Q : Unit → Progress → Prop}
    (h : ∀ p, P p → Q () (afterForgetting a p)) : Ensures P (forgetRequestToken a) Q E := by
  rw [forgetRequestToken]
  split
  · rename_i source
    refine Ensures.bind (R := fun _ p => Q () { p with state := p.state.clearRequestToken })
      (ensures_modify fun p hp => ?_) fun _ => ensures_modifyState fun p hp => hp
    have after := h p hp
    simp only [afterForgetting, source, decide_true, Bool.or_true] at after
    exact after
  · rename_i source
    apply ensures_modifyState
    intro p hp
    have after := h p hp
    simp only [afterForgetting, source, decide_false, Bool.or_false] at after
    exact after

/-- What is found in a cache under a key and what it leaves there, if it is looked into at all. -/
inductive LookedUp (key? : Option String) (cache : Option Cache) :
    Option Response → Option Cache → Prop
  | unused : LookedUp key? cache none cache
  | looked {key : String} {inUse : Cache} (wanted : key? = some key) (present : cache = some inUse)
      (now : Int) : LookedUp key? cache (inUse.get key now).1 (some (inUse.get key now).2)

/-- What a cache holds after a response, which may have been put there. -/
inductive LaidUp (response : Response) (cache : Option Cache) : Option Cache → Prop
  | unused : LaidUp response cache cache
  | laid (key : String) (now : Int) : LaidUp response cache (cache.map (·.set key response now))

theorem ensures_cached? {key : Option String} {Q : Option Response → Progress → Prop}
    (h : ∀ p cache hit, P p → LookedUp key p.cache hit cache → Q hit { p with cache }) :
    Ensures P (cached? key) Q E := by
  apply ensures_get_bind
  intro q hq
  split
  · rename_i name cache inUse
    refine Ensures.bind (R := fun _ => Q (cache.get name q.clock.steady).1) (fun p hp => ?_)
      fun _ => ensures_pure fun p hp => hp
    exact h q _ _ hq (.looked rfl inUse q.clock.steady)
  · exact ensures_pure fun p hp => hp ▸ h q q.cache none hq .unused

theorem ensures_keep {key : Option String} {response : Response} {Q : Unit → Progress → Prop}
    (h : ∀ p cache, P p → LaidUp response p.cache cache → Q () { p with cache }) :
    Ensures P (keep key response) Q E := by
  apply ensures_modify
  intro p hp
  cases key with
  | none => exact h p p.cache hp .unused
  | some key => exact h p _ hp (.laid key p.clock.steady)

theorem arguments_kind (c : Call) (p : Progress) : (c.arguments p).kind = c.args.kind := by
  rw [arguments]
  split <;> rfl

/-- What an attempt leaves for the caller, or for another attempt. -/
def Attempted (Q : Option Response → Progress → Prop) (again : Progress → Prop) :
    Attempt → Progress → Prop
  | .done response => Q response
  | .retry => again

theorem loop_eq (c : Call) (recovered : Bool) (p : Progress) :
    c.loop recovered p = match c.attempt recovered p with
      | (.ok (.done response), p) => (.ok response, p)
      | (.ok .retry, p) => c.loop true p
      | (.error stop, p) => (.error stop, p) := by
  rw [loop]
  split
  · rename_i ran
    rw [ran]
  · rename_i ran
    rw [ran]
  · rename_i ran
    rw [ran]

/-- There are at most two attempts, and the second one only after the first has asked for it. -/
theorem ensures_loop {Q : Option Response → Progress → Prop} {again : Progress → Prop}
    (first : Ensures P (c.attempt false) (Attempted Q again) E)
    (second : Ensures again (c.attempt true) (Attempted Q fun _ => True) E) :
    Ensures P (c.loop false) Q E := by
  have last : Ensures again (c.loop true) Q E := by
    intro p hp
    rw [loop_eq]
    split
    · rename_i response p' ran
      exact second.answer hp ran
    · rename_i p' ran
      exact absurd rfl (c.attempt_concludes.answer trivial ran)
    · rename_i stop p' ran
      exact second.stop hp ran
  intro p hp
  rw [loop_eq]
  split
  · rename_i response p' ran
    exact first.answer hp ran
  · rename_i p' ran
    exact last p' (first.answer hp ran)
  · rename_i stop p' ran
    exact first.stop hp ran

/-- Attempts are made for a request that has passed the checks of a call. -/
theorem ensures_run {Q : Option Response → Progress → Prop} (refused : ∀ r p, P p → E (.refused r) p)
    (loop : c.request.checkCaller = .ok () → Ensures P (c.loop false) Q E) :
    Ensures P c.run Q E := by
  rw [run]
  apply Ensures.bind (R := fun _ p => c.request.checkCaller = .ok () ∧ P p)
    (ensures_ofExcept (fun _ clean p hp => ⟨clean, hp⟩) fun r _ => refused r)
  intro _
  apply Ensures.of_fact
  intro clean
  exact Ensures.bind (R := fun _ => P) (ensures_ofExcept (fun _ _ p hp => hp) fun r _ => refused r)
    fun _ => loop clean

/-- What a call leaves is what its attempts leave, but for random bytes drawn to seal the state. -/
theorem fetch_progress (c : Call) (s : Surroundings) :
    ∃ entropy, (c.fetch s).2 = { (c.run (c.begun s)).2 with entropy } := by
  rw [fetch]
  rcases c.run (c.begun s) with ⟨stop | response, p⟩
  · cases stop with
    | failed f => exact ⟨p.entropy, rfl⟩
    | refused r => exact ⟨_, rfl⟩
  · exact ⟨_, rfl⟩

/-- What the attempts leave, whichever way they end, is what a call leaves, if random bytes do not
matter for it. -/
theorem fetch_of_ensures {I : Progress → Prop} {s : Surroundings} (start : P (c.begun s))
    (stable : ∀ p entropy, I p → I { p with entropy })
    (run : Ensures P c.run (fun _ => I) fun _ => I) : I (c.fetch s).2 := by
  obtain ⟨entropy, left⟩ := c.fetch_progress s
  rw [left]
  refine stable _ _ ?_
  rcases ran : c.run (c.begun s) with ⟨stop | response, p⟩
  · exact run.stop start ran
  · exact run.answer start ran

end DelegatedFetch.Call
