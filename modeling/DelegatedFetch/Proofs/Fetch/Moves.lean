import DelegatedFetch.Proofs.Fetch.Binding
import DelegatedFetch.Proofs.Fetch.Rules

/-!
# Moves of a call

A call goes from one stage to the next by moves. A move runs one part of the
call, an exchange with another host at most, and depends on how that part ends.
Every run of a call is a sequence of moves from its beginning to its end; so
what holds at the beginning and is kept by each move holds at the end.
-/

namespace DelegatedFetch

/-- No request token is bound. -/
def BoundToken.IsSettled (b : BoundToken) : Prop := ∀ t s source, b ≠ .request t s source

theorem BoundToken.isSettled_none : BoundToken.none.IsSettled := nofun

theorem BoundToken.isSettled_access (info : TokenInfo) (source : TokenSource) :
    (BoundToken.access info source).IsSettled := nofun

/-- A token that is bound, and is no request token, is an access token. -/
theorem BoundToken.IsSettled.access {b : BoundToken} {token : String} (settled : b.IsSettled)
    (bound : b.token? = some token) : ∃ info source, b = .access info source ∧ info.token = token := by
  cases b with
  | none => cases bound
  | request t secret source => exact absurd rfl (settled t secret source)
  | access info source => exact ⟨info, source, rfl, Option.some.inj bound⟩

/-- An access token is bound. -/
def BoundToken.IsAccess (b : BoundToken) : Prop := ∃ info source, b = .access info source

theorem BoundToken.IsSettled.isAccess {b : BoundToken} (settled : b.IsSettled)
    (bound : b ≠ .none) : b.IsAccess := by
  cases b with
  | none => exact absurd rfl bound
  | request token secret source => exact absurd rfl (settled token secret source)
  | access info source => exact ⟨info, source, rfl⟩

namespace Call

open Step

/-- Where a call stands between two of its parts. -/
inductive Stage where
  /-- An attempt begins; the call may have recovered before. -/
  | attempting (recovered : Bool)
  /-- The accessor was built. -/
  | built (recovered : Bool) (a : Accessor)
  /-- The token of the accessor tells what comes next: approval, a trade, or the resource. -/
  | choosing (recovered : Bool) (a : Accessor)
  /-- The resource is to be got with what is bound. -/
  | delivering (recovered : Bool) (a : Accessor)
  /-- The session is to be extended: it expired before it was used, or its token was rejected. -/
  | extending (rejected : Bool) (a : Accessor) (handle : String)
  /-- The token is to be forgotten. -/
  | forgetting (rejected : Bool) (a : Accessor)
  | ended (outcome : Except Stop (Option Response))

namespace Stage

/-- What follows when a token was renewed or forgotten: after a rejection another attempt, else what
the accessor is bound to now. -/
def mended : Bool → Accessor → Stage
  | true, _ => attempting true
  | false, a => choosing false a

end Stage

variable {c : Call} {s : Surroundings} {a : Accessor}

/-- One part of a call is run, and its end decides where the call goes. -/
inductive Move (c : Call) : Stage → Progress → Stage → Progress → Prop
  | build {recovered : Bool} {q : Progress} {a : Accessor}
      (built : Accessor.build q.store (c.arguments q) c.token c.services q.state = .ok a) :
      Move c (.attempting recovered) q (.built recovered a) q
  | unbuilt {recovered : Bool} {q : Progress} {r : Refusal}
      (refused : Accessor.build q.store (c.arguments q) c.token c.services q.state = .error r) :
      Move c (.attempting recovered) q (.ended (.error (.refused r))) q
  | sign {recovered : Bool} {q : Progress} {a : Accessor} (kind : c.args.kind = .signed) :
      Move c (.built recovered a) q (.delivering recovered a) q
  | keep {recovered : Bool} {q : Progress} {a : Accessor} (kind : c.args.kind = .delegated)
      (good : recovered = true ∨ a.isExpired q.clock.millis = false ∨ a.sessionHandle? = none) :
      Move c (.built recovered a) q (.choosing recovered a) q
  | expire {q : Progress} {a : Accessor} {handle : String}
      (expired : a.isExpired q.clock.millis = true) (held : a.sessionHandle? = some handle) :
      Move c (.built false a) q (.extending false a handle) q
  | extend {rejected : Bool} {a b : Accessor} {handle : String} {q p : Progress}
      (ran : c.extendSession a handle q = (.ok b, p)) :
      Move c (.extending rejected a handle) q (.mended rejected b) p
  | unextended {rejected : Bool} {a : Accessor} {handle : String} {q p : Progress} {r : Refusal}
      (ran : c.extendSession a handle q = (.error (.refused r), p)) :
      Move c (.extending rejected a handle) q (.forgetting rejected a) p
  | unreached {rejected : Bool} {a : Accessor} {handle : String} {q p : Progress} {f : Failure}
      (ran : c.extendSession a handle q = (.error (.failed f), p)) :
      Move c (.extending rejected a handle) q (.ended (.error (.failed f))) p
  | forget {rejected : Bool} {a : Accessor} {q p : Progress}
      (ran : c.discardToken q = (.ok (), p)) :
      Move c (.forgetting rejected a) q (.mended rejected a.clearToken) p
  | approve {recovered : Bool} {a : Accessor} {q p : Progress} {outcome : Except Stop Unit}
      (kind : c.args.kind = .delegated) (unbound : a.token = .none)
      (wanted : c.args.tokenUse = .always) (ran : c.requestApproval a q = (outcome, p)) :
      Move c (.choosing recovered a) q (.ended (outcome.map fun _ => none)) p
  | use {recovered : Bool} {a : Accessor} {q : Progress} (settled : a.token.IsSettled)
      (enough : a.token = .none → c.args.tokenUse ≠ .always) :
      Move c (.choosing recovered a) q (.delivering recovered a) q
  | trade {recovered : Bool} {a b : Accessor} {q p : Progress} (unsettled : ¬ a.token.IsSettled)
      (ran : c.exchangeRequestToken a q = (.ok b, p)) :
      Move c (.choosing recovered a) q (.delivering recovered b) p
  | startOver {a : Accessor} {q p : Progress} {stop : Stop} (unsettled : ¬ a.token.IsSettled)
      (ran : c.exchangeRequestToken a q = (.error stop, p)) (failed : stop.isTokenFailure = true) :
      Move c (.choosing false a) q (.attempting true) (afterForgetting a p)
  | untraded {recovered : Bool} {a : Accessor} {q p : Progress} {stop : Stop}
      (unsettled : ¬ a.token.IsSettled) (ran : c.exchangeRequestToken a q = (.error stop, p))
      (final : stop.isTokenFailure = false ∨ recovered = true) :
      Move c (.choosing recovered a) q (.ended (.error stop)) (afterForgetting a p)
  | deliver {recovered : Bool} {a : Accessor} {q p : Progress} {response : Response}
      (ran : c.fetchResource a q = (.ok response, p))
      (good : response.resourceFailure? a.hasAccessToken = none) :
      Move c (.delivering recovered a) q (.ended (.ok (some response))) p
  | undelivered {recovered : Bool} {a : Accessor} {q p : Progress} {response : Response}
      {failure : ResourceFailure} (ran : c.fetchResource a q = (.ok response, p))
      (failed : response.resourceFailure? a.hasAccessToken = some failure)
      (final : failure.recoverable = false ∨ recovered = true) :
      Move c (.delivering recovered a) q (.ended (.error (.refused failure.refusal))) p
  | outlive {a : Accessor} {q p : Progress} {response : Response} {failure : ResourceFailure}
      {handle : String} (ran : c.fetchResource a q = (.ok response, p))
      (failed : response.resourceFailure? a.hasAccessToken = some failure)
      (recoverable : failure.recoverable = true) (expired : failure.expired = true)
      (held : a.sessionHandle? = some handle) :
      Move c (.delivering false a) q (.extending true a handle) p
  | reject {a : Accessor} {q p : Progress} {response : Response} {failure : ResourceFailure}
      (ran : c.fetchResource a q = (.ok response, p))
      (failed : response.resourceFailure? a.hasAccessToken = some failure)
      (recoverable : failure.recoverable = true)
      (lost : failure.expired = false ∨ a.sessionHandle? = none) :
      Move c (.delivering false a) q (.forgetting true a) p
  | unfetched {recovered : Bool} {a : Accessor} {q p : Progress} {stop : Stop}
      (ran : c.fetchResource a q = (.error stop, p)) :
      Move c (.delivering recovered a) q (.ended (.error stop)) p

/-- What a call comes to by moves. -/
inductive Reaches (c : Call) (s : Surroundings) : Stage → Progress → Prop
  | unchecked {r : Refusal}
      (refused : c.request.checkCaller = .error r ∨ c.checkIdentity = .error r) :
      Reaches c s (.ended (.error (.refused r))) (c.begun s)
  | start (clean : c.request.checkCaller = .ok ()) (identity : c.checkIdentity = .ok ()) :
      Reaches c s (.attempting false) (c.begun s)
  | move {g g' : Stage} {q p : Progress} (before : Reaches c s g q) (move : c.Move g q g' p) :
      Reaches c s g' p

/-- A part of a call, run where the call stands, brings it to the stage that its answer tells. -/
def Passes {α : Type} (c : Call) (s : Surroundings) (g : Stage) (x : Step α) (next : α → Stage) :
    Prop :=
  Ensures (Reaches c s g) x (fun r => Reaches c s (next r))
    fun stop => Reaches c s (.ended (.error stop))

/-- Where a session that is to be extended goes. -/
def Extends (c : Call) (s : Surroundings) (rejected : Bool) (a : Accessor) :
    Except Stop Accessor → Progress → Prop
  | .ok b => Reaches c s (.mended rejected b)
  | .error (.refused _) => Reaches c s (.forgetting rejected a)
  | .error (.failed f) => Reaches c s (.ended (.error (.failed f)))

theorem passes_discardToken (rejected : Bool) (a : Accessor) :
    Passes c s (.forgetting rejected a) c.discardToken
      fun _ => .mended rejected a.clearToken := by
  intro q reached
  have never : Ensures (· = q) c.discardToken (fun _ _ => True) fun _ _ => False :=
    ensures_discardToken fun _ _ _ _ => trivial
  rcases ran : c.discardToken q with ⟨stop | done, p⟩
  · exact (never.stop rfl ran).elim
  · exact reached.move (.forget ran)

theorem passes_renew (rejected : Bool) (a : Accessor) (handle : String) :
    Passes c s (.extending rejected a handle) (c.renew a handle)
      fun renewed => .mended rejected (renewed.getD a.clearToken) := by
  rw [Passes, renew]
  apply Ensures.bind (R := Extends c s rejected a)
  · apply Ensures.observing
    intro q reached
    rcases ran : c.extendSession a handle q with ⟨(r | f) | b, p⟩
    · exact reached.move (.unextended ran)
    · exact reached.move (.unreached ran)
    · exact reached.move (.extend ran)
  intro result
  rcases result with (r | f) | b
  · exact Ensures.bind (passes_discardToken rejected a) fun _ => ensures_pure fun _ h => h
  · exact ensures_throw fun _ h => h
  · exact ensures_pure fun _ h => h

/-- Where a call goes that has got a response for the resource. -/
def Gets (c : Call) (s : Surroundings) (recovered : Bool) (a : Accessor) (response : Response)
    (p : Progress) : Prop :=
  ∃ q, Reaches c s (.delivering recovered a) q ∧ c.fetchResource a q = (.ok response, p)

/-- What an attempt comes to. -/
def Attempt.stage : Attempt → Stage
  | .done response => .ended (.ok response)
  | .retry => .attempting true

theorem passes_recover {failure : ResourceFailure} {response : Response}
    (failed : response.resourceFailure? a.hasAccessToken = some failure)
    (recoverable : failure.recoverable = true) :
    Ensures (Gets c s false a response) (c.recover a failure.expired)
      (fun _ => Reaches c s (.attempting true)) fun stop => Reaches c s (.ended (.error stop)) := by
  rw [recover]
  split
  · rename_i handle held
    obtain ⟨held, expired⟩ := Option.filter_eq_some_iff.1 held
    refine (Ensures.of_imp (passes_renew true a handle) fun p got => ?_).discard
    obtain ⟨q, reached, ran⟩ := got
    exact reached.move (.outlive ran failed recoverable expired held)
  · rename_i unheld
    have lost : failure.expired = false ∨ a.sessionHandle? = none := by
      rw [Option.filter_eq_none_iff] at unheld
      cases held : a.sessionHandle? with
      | none => exact .inr rfl
      | some handle => exact .inl (by simpa using unheld handle held)
    refine Ensures.of_imp (passes_discardToken true a) fun p got => ?_
    obtain ⟨q, reached, ran⟩ := got
    exact reached.move (.reject ran failed recoverable lost)

theorem final_of_not_mendable {mendable recovered : Bool}
    (h : ¬ (mendable && !recovered) = true) : mendable = false ∨ recovered = true := by
  cases mendable
  · exact .inl rfl
  · exact .inr (by simpa using h)

theorem passes_deliver (recovered : Bool) (a : Accessor) :
    Passes c s (.delivering recovered a) (c.deliver recovered a) Attempt.stage := by
  rw [Passes, deliver]
  apply Ensures.bind (R := Gets c s recovered a)
  · intro q reached
    rcases ran : c.fetchResource a q with ⟨stop | response, p⟩
    · exact reached.move (.unfetched ran)
    · exact ⟨q, reached, ran⟩
  intro response
  split
  · rename_i good
    refine ensures_pure fun p got => ?_
    obtain ⟨q, reached, ran⟩ := got
    exact reached.move (.deliver ran good)
  · rename_i failure failed
    split
    · rename_i mendable
      rw [Bool.and_eq_true, Bool.not_eq_true'] at mendable
      obtain ⟨recoverable, rfl⟩ := mendable
      exact (passes_recover failed recoverable).bind fun _ => ensures_pure fun _ h => h
    · rename_i final
      refine ensures_throw fun p got => ?_
      obtain ⟨q, reached, ran⟩ := got
      refine reached.move (.undelivered ran failed ?_)
      exact final_of_not_mendable final

theorem passes_complete (recovered : Bool) (unsettled : ¬ a.token.IsSettled) :
    Passes c s (.choosing recovered a) (c.complete recovered a) Attempt.stage := by
  rw [Passes, complete]
  apply Ensures.bind (R := fun traded p =>
    ∃ q, Reaches c s (.choosing recovered a) q ∧ c.exchangeRequestToken a q = (traded, p))
  · apply Ensures.observing
    intro q reached
    rcases ran : c.exchangeRequestToken a q with ⟨stop | b, p⟩
    · exact ⟨q, reached, ran⟩
    · exact ⟨q, reached, ran⟩
  intro traded
  cases traded with
  | ok b =>
    refine Ensures.of_imp (passes_deliver recovered b) fun p got => ?_
    obtain ⟨q, reached, ran⟩ := got
    exact reached.move (.trade unsettled ran)
  | error stop =>
    by_cases again : (stop.isTokenFailure && !recovered) = true
    · simp only [again, if_true]
      rw [Bool.and_eq_true, Bool.not_eq_true'] at again
      obtain ⟨failed, rfl⟩ := again
      refine Ensures.bind (R := fun _ => Reaches c s (.attempting true))
        (ensures_forgetRequestToken fun p got => ?_) fun _ => ensures_pure fun _ h => h
      obtain ⟨q, reached, ran⟩ := got
      exact reached.move (.startOver unsettled ran failed)
    · simp only [again]
      refine Ensures.bind (R := fun _ => Reaches c s (.ended (.error stop)))
        (ensures_forgetRequestToken fun p got => ?_) fun _ => ensures_throw fun _ h => h
      obtain ⟨q, reached, ran⟩ := got
      refine reached.move (.untraded unsettled ran ?_)
      exact final_of_not_mendable again

theorem passes_refresh (kind : c.args.kind = .delegated) (recovered : Bool) (a : Accessor) :
    Passes c s (.built recovered a) (c.refresh recovered a) (.choosing recovered) := by
  rw [Passes, refresh]
  apply Ensures.bind (ensures_now (Q := fun now p =>
    now = p.clock.millis ∧ Reaches c s (.built recovered a) p) fun _ h => ⟨rfl, h⟩)
  intro now
  by_cases stale : (!recovered && a.isExpired now) = true
  · simp only [stale, if_true]
    rw [Bool.and_eq_true, Bool.not_eq_true'] at stale
    obtain ⟨rfl, expired⟩ := stale
    split
    · rename_i handle held
      have renews : Passes c s (.extending false a handle) (c.renew a handle)
          fun renewed => .choosing false (renewed.getD a.clearToken) :=
        passes_renew false a handle
      refine (Ensures.of_imp renews ?_).bind fun _ => ensures_pure fun _ h => h
      rintro p ⟨rfl, reached⟩
      exact reached.move (.expire expired held)
    · rename_i unheld
      refine ensures_pure fun p h => ?_
      exact h.2.move (.keep kind (.inr (.inr unheld)))
  · simp only [stale]
    refine ensures_pure fun p h => ?_
    obtain ⟨rfl, reached⟩ := h
    refine reached.move (.keep kind ?_)
    cases recovered with
    | true => exact .inl rfl
    | false => exact .inr (.inl (by simpa using stale))

theorem passes_delegatedFetch (kind : c.args.kind = .delegated) (recovered : Bool) (a : Accessor) :
    Passes c s (.built recovered a) (c.delegatedFetch recovered a) Attempt.stage := by
  rw [Passes, delegatedFetch]
  apply (passes_refresh kind recovered a).bind
  intro b
  split
  · rename_i unbound
    split
    · rename_i wanted
      refine Ensures.bind (R := fun _ => Reaches c s (.ended (.ok none))) (fun q reached => ?_)
        fun _ => ensures_pure fun _ h => h
      rcases ran : c.requestApproval b q with ⟨stop | done, p⟩
      · exact reached.move (.approve kind unbound wanted ran)
      · exact reached.move (.approve kind unbound wanted ran)
    · rename_i enough
      refine Ensures.of_imp (passes_deliver recovered b) fun p reached => ?_
      exact reached.move (.use (unbound ▸ BoundToken.isSettled_none) fun _ => enough)
  · rename_i token secret source request
    exact passes_complete recovered fun settled => settled _ _ _ request
  · rename_i info source access
    refine Ensures.of_imp (passes_deliver recovered b) fun p reached => ?_
    refine reached.move (.use (access ▸ BoundToken.isSettled_access info source) fun unbound => ?_)
    exact absurd (access.symm.trans unbound) (by simp)

theorem passes_attempt (recovered : Bool) :
    Passes c s (.attempting recovered) (c.attempt recovered) Attempt.stage := by
  rw [Passes, attempt]
  apply ensures_get_bind
  intro q reached
  refine Ensures.bind (R := fun a => Reaches c s (.built recovered a))
    (ensures_ofExcept (fun a built p same => ?_) fun r refused p same => ?_) fun a => ?_
  · exact same ▸ reached.move (.build built)
  · exact same ▸ reached.move (.unbuilt refused)
  split
  · rename_i kind
    exact Ensures.of_imp (passes_deliver recovered a) fun p reached => reached.move (.sign kind)
  · rename_i kind
    exact passes_delegatedFetch kind recovered a

/-- A call ends where its moves bring it. -/
theorem reaches_run (c : Call) (s : Surroundings) :
    Reaches c s (.ended (c.run (c.begun s)).1) (c.run (c.begun s)).2 := by
  have attempts (recovered : Bool) : Ensures (Reaches c s (.attempting recovered))
      (c.attempt recovered) (Attempted (fun response => Reaches c s (.ended (.ok response)))
        (Reaches c s (.attempting true))) fun stop => Reaches c s (.ended (.error stop)) := by
    refine (passes_attempt recovered).weaken (fun _ h => h) (fun r p h => ?_) fun _ _ h => h
    cases r <;> exact h
  have run : Ensures (· = c.begun s) c.run (fun response => Reaches c s (.ended (.ok response)))
      fun stop => Reaches c s (.ended (.error stop)) := by
    rw [Call.run]
    apply ensures_ofExcept_bind
    · exact fun r refused p same => same ▸ .unchecked (.inl refused)
    intro _ clean
    apply ensures_ofExcept_bind
    · exact fun r refused p same => same ▸ .unchecked (.inr refused)
    intro _ identity
    refine Ensures.of_imp (ensures_loop (attempts false) ?_) fun p same => same ▸ .start clean identity
    refine (attempts true).weaken (fun _ h => h) (fun r p h => ?_) fun _ _ h => h
    cases r with
    | done => exact h
    | retry => trivial
  rcases ran : c.run (c.begun s) with ⟨stop | response, p⟩
  · exact run.stop rfl ran
  · exact run.answer rfl ran

/-- What a call ends with, random bytes aside that are drawn to seal the state. -/
theorem fetch_of_reaches {I : Progress → Prop} {s : Surroundings}
    (stable : ∀ p entropy, I p → I { p with entropy })
    (ended : ∀ outcome p, Reaches c s (.ended outcome) p → I p) : I (c.fetch s).2 := by
  obtain ⟨entropy, left⟩ := c.fetch_progress s
  rw [left]
  exact stable _ _ (ended _ _ (c.reaches_run s))

/-- A call that is answered has not failed: its moves bring it to an end that its caller is told. -/
theorem reaches_of_answered {s : Surroundings} {response : Response}
    (answered : (c.fetch s).1 = .ok response) : ∃ outcome p entropy,
      Reaches c s (.ended outcome) p ∧ (∀ f, outcome ≠ .error (.failed f)) ∧
        (c.fetch s).2 = { p with entropy } := by
  have reached := c.reaches_run s
  rw [fetch] at answered ⊢
  generalize c.run (c.begun s) = ran at reached answered ⊢
  rcases ran with ⟨(r | f) | bare, p⟩
  · exact ⟨_, p, _, reached, by simp, rfl⟩
  · cases answered
  · exact ⟨_, p, _, reached, by simp, rfl⟩

end Call
end DelegatedFetch
