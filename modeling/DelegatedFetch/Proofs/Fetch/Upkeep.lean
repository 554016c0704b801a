import DelegatedFetch.Proofs.Fetch.Renewal

/-!
# Every move of a call keeps to the token that is to be used

Each move is followed from the progress before it, through the ways in which its
part of the call can end. So wherever a call stands, it has the token that was
issued last, or a reason why it has none.
-/

namespace DelegatedFetch.Call

variable {c : Call} {s : Surroundings} {a : Accessor} {p p' q : Progress} {x : Exchange}
  {purpose : Purpose} {g g' : Stage}

/-- The progress before an exchange, with the cache as it is after. -/
theorem Exchanged.noted (h : Exchanged c s a purpose q x p) :
    Noted { q with cache := p.cache } x p :=
  ⟨h.store, rfl, h.state, h.spent, h.sent⟩

theorem Renewed.cached (h : Renewed c s q) {cache : Option Cache} (answers : OnlySuccesses cache) :
    Renewed c s { q with cache } :=
  h.alike ⟨rfl, rfl, rfl, rfl⟩ answers

theorem Ready.cached (h : Ready c s a q) (cache : Option Cache) : Ready c s a { q with cache } :=
  h.alike ⟨rfl, rfl, rfl, rfl⟩

theorem Still.alike (h : Still q p) : Alike q p := ⟨h.store, h.state, h.spent, h.sent⟩

theorem Renewed.still (h : Renewed c s q) (still : Still q p) : Renewed c s p :=
  h.alike still.alike (still.answers h.answers)

/-- What is signed with a token carries it. -/
theorem Exchanged.carries {token : String} (h : Exchanged c s a purpose q x p)
    (bound : a.token.token? = some token) : c.Carries x token := by
  obtain ⟨g, same, of⟩ := h.signed
  exact of.carries (same ▸ bound)

/-- A request for the resource carries what its accessor is bound to, and no other token. -/
theorem Exchanged.carries_iff (h : Exchanged c s a .resource q x p) (token : String) :
    c.Carries x token ↔ a.token.token? = some token := by
  obtain ⟨g, same, of⟩ := h.signed
  rw [← same]
  exact carries_resource_iff of h.purpose token

theorem Exchanged.fitting (h : Exchanged c s a purpose q x p) (ready : Ready c s a q)
    (settled : purpose = .resource → a.token.IsSettled) : Fitting c s q.sent x := by
  intro resource
  obtain rfl := h.purpose.symm.trans resource
  exact ⟨_, h.carries_iff, ready.current (settled rfl)⟩

/-- An exchange that issues nothing changes nothing of what is to be used. -/
theorem Renewed.exchanged (h : Renewed c s q) (ready : Ready c s a q)
    (exchanged : Exchanged c s a purpose q x p) (silent : x.issued? = none)
    (settled : purpose = .resource → a.token.IsSettled) : Renewed c s p :=
  (h.cached (exchanged.answers h.answers)).noted exchanged.noted silent
    (exchanged.fitting ready settled)

theorem Ready.exchanged (h : Ready c s a q) (exchanged : Exchanged c s a purpose q x p)
    (silent : x.issued? = none) : Ready c s a p :=
  (h.cached p.cache).noted exchanged.noted silent

theorem Renewed.unanswered {stop : Stop} (h : Renewed c s q) (ready : Ready c s a q)
    (unanswered : Unanswered c s a purpose q stop p)
    (settled : purpose = .resource → a.token.IsSettled) : Renewed c s p := by
  cases unanswered with
  | unsigned still => exact h.still still
  | unreached exchanged lost =>
    have silent := Exchange.issued?_of_unanswered (exchanged.silent lost)
    exact h.exchanged ready exchanged silent settled

/-- An exchange that has issued a token, which is about to be kept. -/
theorem Exchanged.issuing {token : String} (h : Exchanged c s a purpose q x p)
    (ofToken : purpose ≠ .resource) (issued : x.issued? = some token)
    (wanted : c.args.kind = .delegated ∧ c.args.tokenUse ≠ .never)
    (unnamed : (c.arguments p).requestToken = none) :
    Issuing c { q with cache := p.cache } x token p :=
  ⟨wanted, unnamed, h.store, rfl, h.sent, h.purpose ▸ ofToken, issued⟩

theorem Exchanged.arguments (h : Exchanged c s a purpose q x p) : c.arguments p = c.arguments q := by
  rw [Call.arguments, Call.arguments, h.spent]

/-- What holds when a session was extended, or was not. -/
def AfterExtension (c : Call) (s : Surroundings) : Except Stop Accessor → Progress → Prop
  | .ok b, p => Renewed c s p ∧ Ready c s b p
  | .error (.refused _), p => Forsaken c s p
  | .error (.failed _), p => Renewed c s p

theorem Renewed.extended {handle : String} {outcome : Except Stop Accessor} (h : Renewed c s q)
    (ready : Ready c s a q) (sound : Sound c s a q) (held : a.sessionHandle? = some handle)
    (extended : Extended c s a handle q outcome p) : AfterExtension c s outcome p := by
  obtain ⟨info, source, access, session⟩ := sound.2.coherent.access held
  have bound : a.token ≠ .none := by simp [access]
  have issuing {x : Exchange} {new : TokenInfo} {p : Progress}
      (exchanged : Exchanged c s a .extension q x p)
      (issued : x.tokenInfo? p.clock.millis = some new) :
      Issuing c { q with cache := p.cache } x new.token p := by
    refine exchanged.issuing nofun ?_ (ready.wanted bound) ?_
    · rw [x.issued?_eq p.clock.millis, issued]
      rfl
    · exact exchanged.arguments ▸ ready.unnamed bound (by simp [access])
  cases extended with
  | unanswered unanswered =>
    cases unanswered with
    | unsigned still means =>
      refine forsaken_of_unsigned (h.cached (still.answers h.answers)) sound.1.signed
        (ready.cached p.cache) access (by simp [session]) (means (.inr rfl)) ?_ rfl
      exact ⟨still.store, still.state, still.spent, still.sent⟩
    | unreached exchanged lost =>
      have silent := Exchange.issued?_of_unanswered (exchanged.silent lost)
      exact h.exchanged ready exchanged silent nofun
  | refused exchanged refuses =>
    obtain ⟨response, answered⟩ := refuses.answered
    refine forsaken_of_rejects (h.cached (exchanged.answers h.answers)) (ready.cached p.cache)
      access exchanged.noted (exchanged.fitting ready nofun)
      ⟨response, answered, .inr ⟨exchanged.purpose, refuses.silent⟩⟩ (exchanged.carries ?_)
    rw [access]
    rfl
  | unkept exchanged issued server stranger =>
    exact (issuing exchanged issued).forsaken (h.cached (exchanged.answers h.answers)) server
      stranger
  | @extended x new source p p' exchanged issued kept =>
    have bare := issuing exchanged issued
    have issuing : Issuing c { q with cache := p.cache } x (new.keepingHandle handle).token p := bare
    exact issuing.kept (h.cached (exchanged.answers h.answers)) kept

/-- What holds when a request token was traded, or was not. -/
def AfterTrade (c : Call) (s : Surroundings) : Except Stop Accessor → Progress → Prop
  | .ok b, p => Renewed c s p ∧ Ready c s b p
  | .error _, p => Renewed c s p

theorem Renewed.traded {outcome : Except Stop Accessor} (h : Renewed c s q)
    (ready : Ready c s a q) (unsettled : ¬ a.token.IsSettled)
    (traded : Traded c s a q outcome p) : AfterTrade c s outcome p := by
  have bound : a.token ≠ .none := fun none => unsettled (none ▸ BoundToken.isSettled_none)
  cases traded with
  | foreign => exact h
  | unanswered unanswered => exact h.unanswered ready unanswered nofun
  | refused exchanged refuses => exact h.exchanged ready exchanged refuses.silent nofun
  | @traded x info source p p' exchanged issued kept =>
    have issuing : Issuing c { q with cache := p.cache } x info.token
        (Call.afterForgetting a p) := by
      refine ⟨ready.wanted bound, requestToken_afterForgetting ?_, exchanged.store, rfl,
        exchanged.sent, by rw [exchanged.purpose]; decide, ?_⟩
      · by_cases named : a.source = .arguments
        · exact .inl named
        · refine .inr (exchanged.arguments ▸ ready.unnamed bound fun t secret request => named ?_)
          exact Accessor.source_of_request request
      · rw [x.issued?_eq p.clock.millis, issued]
        rfl
    exact issuing.kept (h.cached (exchanged.answers h.answers)) kept

theorem Renewed.approved {outcome : Except Stop Unit} (h : Renewed c s q) (ready : Ready c s a q)
    (unbound : a.token = .none) (approved : Approved c s a q outcome p) : Renewed c s p := by
  have silent {x : Exchange} {p : Progress} (exchanged : Exchanged c s a .requestToken q x p) :
      x.issued? = none := Exchange.issued?_of_purpose (by simp [exchanged.purpose])
  cases approved with
  | foreign => exact h
  | unanswered unanswered => exact h.unanswered ready unanswered nofun
  | refused exchanged => exact h.exchanged ready exchanged (silent exchanged) nofun
  | @approved x token secret url p exchanged grants =>
    have renewed := h.exchanged ready exchanged (silent exchanged) nofun
    have current := (ready.exchanged exchanged (silent exchanged)).current
      (unbound ▸ BoundToken.isSettled_none)
    rw [unbound] at current
    exact (renewed.cleared current rfl).alike ⟨rfl, rfl, rfl, rfl⟩ renewed.answers

/-- A response that may be mended was got with an access token. -/
theorem access_of_rejected {response : Response} (h : Rejected a response) :
    ∃ info source, a.token = .access info source := by
  obtain ⟨failure, failed, recoverable⟩ := h
  cases bound : a.token with
  | access info source => exact ⟨info, source, rfl⟩
  | _ =>
    have unused : a.hasAccessToken = false := by
      rw [Accessor.hasAccessToken_eq, bound]
      rfl
    rw [unused] at failed
    cases (Response.not_recoverable failed).symm.trans recoverable

/-- What holds when the resource was got, or was not: a token that was not accepted is forsaken. -/
def AfterFetch (c : Call) (s : Surroundings) (a : Accessor) : Except Stop Response → Progress → Prop
  | .ok response, p =>
    (Renewed c s p ∧ Ready c s a p) ∧ (Rejected a response → Forsaken c s p)
  | .error _, p => Renewed c s p

theorem Renewed.fetched {outcome : Except Stop Response} (h : Renewed c s q)
    (ready : Ready c s a q) (settled : a.token.IsSettled)
    (fetched : Fetched c s a q outcome p) : AfterFetch c s a outcome p := by
  cases fetched with
  | cached still held =>
    exact ⟨⟨h.still still, ready.alike still.alike⟩, fun rejected =>
      absurd rejected (not_rejected_of_isSuccess (held.isSuccess h.answers))⟩
  | unanswered unanswered => exact h.unanswered ready unanswered fun _ => settled
  | @answered x response p exchanged answered =>
    have silent : x.issued? = none := Exchange.issued?_of_purpose (by simp [exchanged.purpose])
    refine ⟨⟨h.exchanged ready exchanged silent fun _ => settled,
      ready.exchanged exchanged silent⟩, fun rejected => ?_⟩
    obtain ⟨info, source, access⟩ := access_of_rejected rejected
    obtain ⟨failure, failed, recoverable⟩ := rejected
    have used : a.hasAccessToken = true := by
      rw [Accessor.hasAccessToken_eq, access]
      rfl
    have rejects : x.Rejects :=
      ⟨response, answered, .inl ⟨exchanged.purpose, failure, used ▸ failed, recoverable⟩⟩
    refine forsaken_of_rejects (h.cached (exchanged.answers h.answers)) (ready.cached p.cache)
      access exchanged.noted (exchanged.fitting ready fun _ => settled) rejects
      (exchanged.carries ?_)
    rw [access]
    rfl

/-- What holds of a call at each stage. -/
def RenewedAt (c : Call) (s : Surroundings) : Stage → Progress → Prop
  | .attempting _, p | .ended _, p => Renewed c s p
  | .built _ a, p | .choosing _ a, p | .delivering _ a, p | .extending _ a _, p =>
    Renewed c s p ∧ Ready c s a p
  | .forgetting _ _, p => Forsaken c s p

theorem Renewed.mended (h : Renewed c s p ∧ Ready c s a p) (rejected : Bool) :
    RenewedAt c s (.mended rejected a) p := by
  cases rejected with
  | true => exact h.1
  | false => exact h

theorem RenewedAt.move (sound : SoundAt c s g q) (clean : c.request.checkCaller = .ok ())
    (h : RenewedAt c s g q) (move : c.Move g q g' p) : RenewedAt c s g' p := by
  cases move with
  | build built => exact ⟨h, ready_of_build h built⟩
  | unbuilt | sign | keep | expire | use => exact h
  | extend ran =>
    exact Renewed.mended (h.1.extended h.2 sound.2 sound.1
      (extended_of_run sound.2 sound.1 ran)) _
  | unextended ran | unreached ran =>
    exact h.1.extended h.2 sound.2 sound.1 (extended_of_run sound.2 sound.1 ran)
  | forget ran => exact Renewed.mended (h.discarded (discarded_of_run ran)) _
  | approve kind unbound _ ran =>
    exact h.1.approved h.2 unbound (approved_of_run sound kind unbound ran)
  | trade unsettled ran =>
    exact h.1.traded h.2 unsettled (traded_of_run sound (sound.2.delegated unsettled) ran)
  | startOver unsettled ran | untraded unsettled ran =>
    have left : Renewed c s _ :=
      h.1.traded h.2 unsettled (traded_of_run sound (sound.2.delegated unsettled) ran)
    exact left.afterForgetting _
  | deliver ran | undelivered ran =>
    exact (h.1.fetched h.2 sound.1 (fetched_of_run sound.2 clean sound.1 ran)).1.1
  | outlive ran =>
    exact (h.1.fetched h.2 sound.1 (fetched_of_run sound.2 clean sound.1 ran)).1
  | @reject a _ _ response failure ran failed recoverable =>
    have fetched : AfterFetch c s a (.ok response) p :=
      h.1.fetched h.2 sound.1 (fetched_of_run sound.2 clean sound.1 ran)
    exact fetched.2 ⟨failure, failed, recoverable⟩
  | unfetched ran =>
    exact h.1.fetched h.2 sound.1 (fetched_of_run sound.2 clean sound.1 ran)

theorem Reaches.renewed (answers : OnlySuccesses s.cache) (h : Reaches c s g p) :
    RenewedAt c s g p := by
  induction h with
  | unchecked => exact renewed_begun answers
  | start => exact renewed_begun answers
  | move before move ih => exact ih.move before.sound (before.clean move) move

theorem renewed_fetch (c : Call) {s : Surroundings} (answers : OnlySuccesses s.cache) :
    Renewed c s (c.fetch s).2 :=
  fetch_of_reaches (fun _ _ h => h.alike ⟨rfl, rfl, rfl, rfl⟩ h.answers)
    fun _ _ reached => reached.renewed answers

end DelegatedFetch.Call
