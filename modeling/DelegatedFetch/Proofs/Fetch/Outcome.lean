import DelegatedFetch.Proofs.Fetch.Scope

/-!
# What a caller is told in the end

A call fails exactly if the last request that it sends is not answered; no other
failure gets out, and none is swallowed. Every other call is answered in one of
three ways: with the resource as it was got, with a page where access is to be
approved, or with a refusal. That the three can be told apart rests on resources
that bring no metadata of their own.
-/

namespace DelegatedFetch

namespace Call

variable {c : Call} {s : Surroundings} {a : Accessor} {p p' q : Progress} {x : Exchange}
  {purpose : Purpose} {g g' : Stage} {bare response : Response}

/-- Each request so far was answered. -/
def AllAnswered (c : Call) (sent : List Exchange) : Prop :=
  ∀ n < sent.length, ∃ response, (c.replies n).outcome = .ok response

/-- The last request was not answered, for the reason that a call fails with; each one before it was
answered. -/
def LostLast (c : Call) (sent : List Exchange) (f : Failure) : Prop :=
  ∃ n text, sent.length = n + 1 ∧ (c.replies n).outcome = .error text ∧ f = .transport text ∧
    ∀ m < n, ∃ response, (c.replies m).outcome = .ok response

/-- Each request so far was answered, there is no page for approval, and the cache has gained
nothing. -/
structure Underway (c : Call) (s : Surroundings) (p : Progress) : Prop where
  answered : c.AllAnswered p.sent
  unapproved : p.approvalUrl = none
  gains : CacheGains none s.cache p.cache

/-- A call has failed with its last request, and the cache has gained nothing. -/
structure FailedLast (c : Call) (s : Surroundings) (f : Failure) (p : Progress) : Prop where
  lost : c.LostLast p.sent f
  gains : CacheGains none s.cache p.cache

/-- A page for approval is known, and the state has the request token that is to be approved. -/
structure Asks (c : Call) (s : Surroundings) (p : Progress) : Prop where
  answered : c.AllAnswered p.sent
  page : p.approvalUrl ≠ none
  requestToken : p.state.requestToken ≠ none
  gains : CacheGains none s.cache p.cache

/-- The resource was got: by the last exchange, or from what the cache held at the beginning. -/
inductive Source (c : Call) (s : Surroundings) (sent : List Exchange) (bare : Response) : Prop
  | sent {before : List Exchange} {e : Exchange} (last : sent = before ++ [e])
      (resource : e.purpose = .resource) (answered : (c.replies before.length).outcome = .ok bare)
  | cached {a : Accessor} (held : c.HeldFor a s.cache bare)

/-- The resource was got, and the cache has gained that at most. -/
structure Brings (c : Call) (s : Surroundings) (bare : Response) (p : Progress) : Prop where
  answered : c.AllAnswered p.sent
  unapproved : p.approvalUrl = none
  source : Source c s p.sent bare
  gains : CacheGains (some bare) s.cache p.cache

/-- How a call stands when it has ended. -/
def EndsWith (c : Call) (s : Surroundings) : Except Stop (Option Response) → Progress → Prop
  | .error (.failed f), p => FailedLast c s f p
  | .error (.refused _), p => Underway c s p
  | .ok none, p => Asks c s p
  | .ok (some bare), p => Brings c s bare p

/-- How a call stands at each stage. -/
def StandsAt (c : Call) (s : Surroundings) : Stage → Progress → Prop
  | .ended outcome, p => EndsWith c s outcome p
  | _, p => Underway c s p

theorem underway_begun (c : Call) (s : Surroundings) : Underway c s (c.begun s) :=
  ⟨nofun, rfl, .refl⟩

/-- Only the exchanges, the page for approval and the cache matter. -/
theorem Underway.alike (h : Underway c s p) (sent : p'.sent = p.sent)
    (page : p'.approvalUrl = p.approvalUrl) (cache : p'.cache = p.cache) : Underway c s p' := by
  refine ⟨?_, page.trans h.unapproved, cache ▸ h.gains⟩
  rw [sent]
  exact h.answered

theorem Underway.still (h : Underway c s q) (still : Still q p) : Underway c s p := by
  refine ⟨?_, still.approvalUrl.trans h.unapproved, h.gains.trans still.gains⟩
  rw [still.sent]
  exact h.answered

/-- What an exchange was answered with is its reply. -/
theorem Exchanged.outcome (h : Exchanged c s a purpose q x p)
    (answered : x.response = some response) :
    (c.replies q.sent.length).outcome = .ok response := by
  have got := h.response.symm.trans answered
  cases outcome : (c.replies q.sent.length).outcome with
  | ok other =>
    rw [outcome] at got
    rw [Option.some.inj got]
  | error text =>
    rw [outcome] at got
    cases got

theorem AllAnswered.exchanged (h : c.AllAnswered q.sent)
    (exchanged : Exchanged c s a purpose q x p) (answered : x.response = some response) :
    c.AllAnswered p.sent := by
  intro n inside
  rw [exchanged.sent, List.length_append, List.length_singleton, Nat.lt_succ_iff_lt_or_eq] at inside
  rcases inside with earlier | rfl
  · exact h n earlier
  · exact ⟨response, exchanged.outcome answered⟩

/-- An answer that the cache does not keep leaves a call under way. -/
theorem Underway.exchanged (h : Underway c s q) (exchanged : Exchanged c s a purpose q x p)
    (answered : x.response = some response)
    (unkept : ∀ got, x.resource? = some got → got.isSuccess = false) : Underway c s p :=
  ⟨h.answered.exchanged exchanged answered, exchanged.approvalUrl.trans h.unapproved,
    h.gains.trans (exchanged.gains.none_of_failure unkept)⟩

/-- Only what was got for the resource may be kept. -/
theorem Exchanged.unkept (h : Exchanged c s a purpose q x p) (ofToken : purpose ≠ .resource) :
    ∀ got, x.resource? = some got → got.isSuccess = false := by
  intro got same
  rw [Exchange.resource?, if_neg (h.purpose ▸ ofToken)] at same
  cases same

theorem Underway.unanswered {stop : Stop} (h : Underway c s q)
    (unanswered : Unanswered c s a purpose q stop p) : EndsWith c s (.error stop) p := by
  cases unanswered with
  | unsigned still => exact h.still still
  | @unreached p x text exchanged lost =>
    refine ⟨⟨q.sent.length, text, ?_, lost, rfl, h.answered⟩, ?_⟩
    · rw [exchanged.sent, List.length_append, List.length_singleton]
    · refine h.gains.trans (exchanged.gains.none_of_failure fun got same => ?_)
      rw [Exchange.resource?, exchanged.silent lost, ite_self] at same
      cases same

theorem Underway.kept {info : TokenInfo} {source : TokenSource} (h : Underway c s p)
    (kept : Kept c info p source p') : Underway c s p' := by
  cases kept with
  | inStore => exact h.alike rfl rfl rfl
  | inState => exact h.alike rfl rfl rfl

theorem Underway.discarded (h : Underway c s p) (discarded : Discarded c p p') :
    Underway c s p' := by
  cases discarded with
  | stored => exact h.alike rfl rfl rfl
  | carried => exact h.alike rfl rfl rfl

theorem Exchange.answered_of_tokenInfo? {info : TokenInfo} {now : UInt64}
    (issued : x.tokenInfo? now = some info) : ∃ response, x.response = some response := by
  rw [Exchange.tokenInfo?] at issued
  split at issued
  · obtain ⟨response, answered, -⟩ := Option.bind_eq_some_iff.1 issued
    exact ⟨response, answered⟩
  · cases issued

/-- How a call stands when a token was asked for: under way, if there is an answer or a refusal. -/
def StandsAfter {α : Type} (c : Call) (s : Surroundings) : Except Stop α → Progress → Prop
  | .ok _, p => Underway c s p
  | .error stop, p => EndsWith c s (.error stop) p

theorem Underway.extended {handle : String} {outcome : Except Stop Accessor} (h : Underway c s q)
    (extended : Extended c s a handle q outcome p) : StandsAfter c s outcome p := by
  cases extended with
  | unanswered unanswered => exact h.unanswered unanswered
  | refused exchanged refuses =>
    obtain ⟨response, answered⟩ := refuses.answered
    exact h.exchanged exchanged answered (exchanged.unkept nofun)
  | unkept exchanged issued =>
    obtain ⟨response, answered⟩ := Exchange.answered_of_tokenInfo? issued
    exact h.exchanged exchanged answered (exchanged.unkept nofun)
  | extended exchanged issued kept =>
    obtain ⟨response, answered⟩ := Exchange.answered_of_tokenInfo? issued
    exact (h.exchanged exchanged answered (exchanged.unkept nofun)).kept kept

theorem Underway.traded {outcome : Except Stop Accessor} (h : Underway c s q)
    (traded : Traded c s a q outcome p) : StandsAfter c s outcome p := by
  cases traded with
  | foreign => exact h
  | unanswered unanswered => exact h.unanswered unanswered
  | refused exchanged refuses =>
    obtain ⟨response, answered⟩ := refuses.answered
    exact h.exchanged exchanged answered (exchanged.unkept nofun)
  | @traded x info source p p' exchanged issued kept =>
    obtain ⟨response, answered⟩ := Exchange.answered_of_tokenInfo? issued
    have asked := h.exchanged exchanged answered (exchanged.unkept nofun)
    have spent : Underway c s (afterForgetting a p) := asked.alike rfl rfl rfl
    exact spent.kept kept

theorem Underway.approved {outcome : Except Stop Unit} (h : Underway c s q)
    (approved : Approved c s a q outcome p) :
    EndsWith c s (outcome.map fun _ => none) p := by
  cases approved with
  | foreign => exact h
  | unanswered unanswered => exact h.unanswered unanswered
  | refused exchanged answered => exact h.exchanged exchanged answered (exchanged.unkept nofun)
  | approved exchanged grants =>
    obtain ⟨response, answered, -⟩ := grants
    have asked := h.exchanged exchanged answered (exchanged.unkept nofun)
    exact ⟨asked.answered, nofun, nofun, asked.gains⟩

/-- How a call stands when the resource was asked for. It may end with what it has got, or go on if
that is no success. -/
def StandsGot (c : Call) (s : Surroundings) : Except Stop Response → Progress → Prop
  | .ok response, p => Brings c s response p ∧ (response.isSuccess = false → Underway c s p)
  | .error stop, p => EndsWith c s (.error stop) p

theorem Underway.fetched {outcome : Except Stop Response} (h : Underway c s q)
    (fetched : Fetched c s a q outcome p) : StandsGot c s outcome p := by
  cases fetched with
  | cached still held =>
    have on := h.still still
    exact ⟨⟨on.answered, on.unapproved, .cached (held.of_gains h.gains), on.gains.weaken⟩,
      fun _ => on⟩
  | unanswered unanswered => exact h.unanswered unanswered
  | @answered x response p exchanged answered =>
    have got : x.resource? = some response := by
      rw [Exchange.resource?, if_pos exchanged.purpose, answered]
    have gains : CacheGains (some response) s.cache p.cache :=
      got ▸ h.gains.weaken.trans exchanged.gains
    refine ⟨⟨h.answered.exchanged exchanged answered, exchanged.approvalUrl.trans h.unapproved,
      .sent exchanged.sent exchanged.purpose (exchanged.outcome answered), gains⟩,
      fun failed => h.exchanged exchanged answered fun other same => ?_⟩
    obtain rfl := Option.some.inj (got.symm.trans same)
    exact failed

/-- A resource that was not delivered is no success. -/
theorem isSuccess_of_failure {failure : ResourceFailure}
    (failed : response.resourceFailure? a.hasAccessToken = some failure) :
    response.isSuccess = false := by
  rw [Response.resourceFailure?] at failed
  split at failed
  · cases failed
  · rename_i other
    exact Bool.eq_false_iff.2 other

theorem StandsAt.mended (h : Underway c s p) (rejected : Bool) :
    StandsAt c s (.mended rejected a) p := by
  cases rejected with
  | true => exact h
  | false => exact h

theorem StandsAt.move (reached : Reaches c s g q) (h : StandsAt c s g q) (move : c.Move g q g' p) :
    StandsAt c s g' p := by
  have sound := reached.sound
  have clean := reached.clean move
  cases move with
  | build | unbuilt | sign | keep | expire | use => exact h
  | extend ran => exact .mended (Underway.extended h (extended_of_run sound.2 sound.1 ran)) _
  | unextended ran | unreached ran => exact Underway.extended h (extended_of_run sound.2 sound.1 ran)
  | forget ran => exact .mended (Underway.discarded h (discarded_of_run ran)) _
  | approve kind unbound _ ran => exact Underway.approved h (approved_of_run sound kind unbound ran)
  | trade unsettled ran =>
    exact Underway.traded h (traded_of_run sound (sound.2.delegated unsettled) ran)
  | @startOver _ _ _ stop unsettled ran failed =>
    have ended := Underway.traded h (traded_of_run sound (sound.2.delegated unsettled) ran)
    cases stop with
    | failed f => cases failed
    | refused r => exact Underway.alike ended rfl rfl rfl
  | @untraded _ _ _ _ stop unsettled ran =>
    have ended := Underway.traded h (traded_of_run sound (sound.2.delegated unsettled) ran)
    cases stop with
    | failed f => exact ⟨ended.lost, ended.gains⟩
    | refused r => exact Underway.alike ended rfl rfl rfl
  | deliver ran => exact (Underway.fetched h (fetched_of_run sound.2 clean sound.1 ran)).1
  | undelivered ran failed | outlive ran failed | reject ran failed =>
    exact (Underway.fetched h (fetched_of_run sound.2 clean sound.1 ran)).2
      (isSuccess_of_failure failed)
  | unfetched ran => exact Underway.fetched h (fetched_of_run sound.2 clean sound.1 ran)

theorem Reaches.stands (h : Reaches c s g p) : StandsAt c s g p := by
  induction h with
  | unchecked | start => exact c.underway_begun s
  | move before move ih => exact ih.move before move

end Call

/-- A response has a status, and neither headers nor a body. -/
structure Response.IsBlank (response : Response) (status : Nat) : Prop where
  status : response.status = status
  headers : response.headers = []
  body : response.body = []

/-- A cache that is in use holds responses without metadata only. -/
def PlainCache (cache : Option Cache) : Prop :=
  ∀ inUse, cache = some inUse → ∀ entry ∈ inUse.entries.entries, entry.2.response.metadata = .empty

theorem plainCache_none : PlainCache none := nofun

theorem PlainCache.gains {cache later : Option Cache} {got : Option Response} (h : PlainCache cache)
    (gains : Call.CacheGains got cache later)
    (plain : ∀ response, got = some response → response.metadata = .empty) : PlainCache later := by
  intro inUse' present entry mem
  obtain ⟨inUse, before, gained⟩ := gains inUse' present
  rcases gained.held entry mem with old | ⟨-, same⟩
  · exact h inUse before entry old
  · exact plain _ same

/-- In which way a caller is answered. -/
inductive Verdict where
  | delivered
  | pending
  | refused
  deriving DecidableEq, Repr

namespace Visit

open Call

variable {v : Visit} {response bare : Response}

/-- A request of the call was not answered. -/
def Loses (v : Visit) (n : Nat) (text : String) : Prop :=
  n < v.final.sent.length ∧ (v.call.replies n).outcome = .error text

/-- What a response shows of each verdict: the resource as it was got, with a state next to it at
most; a page for approval and a state, with no refusal; or the code and the text of a refusal, with
no page. -/
def Shows (v : Visit) (response : Response) : Verdict → Prop
  | .delivered => ∃ bare, Source v.call v.start v.final.sent bare ∧
      response.status = bare.status ∧ response.headers = bare.headers ∧
      response.body = bare.body ∧
      ∀ key, key ≠ Report.stateKey → response.metadata.find? key = bare.metadata.find? key
  | .pending => response.IsBlank 200 ∧ response.metadata.contains Report.approvalKey = true ∧
      response.metadata.contains Report.stateKey = true ∧
      response.metadata.contains Report.errorKey = false
  | .refused => response.IsBlank 403 ∧ response.metadata.contains Report.errorKey = true ∧
      response.metadata.contains Report.errorTextKey = true ∧
      response.metadata.contains Report.approvalKey = false

/-- A visit comes to what the moves of its call come to. -/
theorem exists_ended (v : Visit) : ∃ outcome p, EndsWith v.call v.start outcome p ∧
    (v.call.fetch v.start).1 = (v.call.finish outcome p).1 ∧
    v.final.sent = p.sent ∧ v.final.cache = p.cache := by
  obtain ⟨entropy, left⟩ := v.call.fetch_progress v.start
  have ended := (v.call.reaches_run v.start).stands
  refine ⟨_, _, ended, ?_, ?_, ?_⟩
  · rw [fetch]
    rcases v.call.run (v.call.begun v.start) with ⟨outcome, p⟩
    rfl
  · rw [final, left]
  · rw [final, left]

/-- The last request of a visit was not answered, and it fails with that; or each request was
answered, and so is the caller. -/
theorem lost_or_answered (v : Visit) :
    (∃ f, (v.call.fetch v.start).1 = .error f ∧ v.call.LostLast v.final.sent f) ∨
      ∃ response, (v.call.fetch v.start).1 = .ok response ∧ v.call.AllAnswered v.final.sent := by
  obtain ⟨outcome, p, ended, told, sent, -⟩ := v.exists_ended
  rw [told, sent]
  rcases outcome with (r | f) | bare?
  · exact .inr ⟨_, rfl, ended.answered⟩
  · exact .inl ⟨f, rfl, ended.lost⟩
  · cases bare? with
    | none => exact .inr ⟨_, rfl, ended.answered⟩
    | some bare => exact .inr ⟨_, rfl, ended.answered⟩

theorem not_loses_of_allAnswered (answered : v.call.AllAnswered v.final.sent) (n : Nat)
    (text : String) : ¬ v.Loses n text := by
  rintro ⟨inside, lost⟩
  obtain ⟨response, outcome⟩ := answered n inside
  cases lost.symm.trans outcome

/-- There is nothing lost before the last request. -/
theorem loses_iff_of_lostLast {f : Failure} (failed : v.call.LostLast v.final.sent f) (n : Nat)
    (text : String) : v.Loses n text ↔ v.final.sent.length = n + 1 ∧ f = .transport text := by
  obtain ⟨last, told, length, lost, rfl, answered⟩ := failed
  rw [Loses, length]
  constructor
  · rintro ⟨inside, lost'⟩
    obtain earlier | rfl := Nat.lt_succ_iff_lt_or_eq.1 inside
    · obtain ⟨response, outcome⟩ := answered n earlier
      cases lost'.symm.trans outcome
    · rw [Except.error.inj (lost.symm.trans lost')]
      exact ⟨rfl, rfl⟩
  · rintro ⟨same, told'⟩
    obtain rfl := Nat.succ.inj same
    obtain rfl := Failure.transport.inj told'
    exact ⟨Nat.lt_succ_self _, lost⟩

/-- A call fails exactly with the reason why a request was not answered. -/
theorem error_iff_loses (v : Visit) (f : Failure) :
    (v.call.fetch v.start).1 = .error f ↔ ∃ n text, v.Loses n text ∧ f = .transport text := by
  rcases v.lost_or_answered with ⟨f', failed, lost⟩ | ⟨response, told, answered⟩
  · have loses := loses_iff_of_lostLast lost
    obtain ⟨n, text, length, -, transport, -⟩ := lost
    rw [failed]
    constructor
    · intro same
      obtain rfl := Except.error.inj same
      exact ⟨n, text, (loses n text).2 ⟨length, transport⟩, transport⟩
    · rintro ⟨n', text', lost', rfl⟩
      exact congrArg Except.error ((loses n' text').1 lost').2
  · rw [told]
    refine iff_of_false nofun ?_
    rintro ⟨n, text, loses, -⟩
    exact not_loses_of_allAnswered answered n text loses

/-- A request that was not answered is the last one. -/
theorem length_of_loses {n : Nat} {text : String} (loses : v.Loses n text) :
    v.final.sent.length = n + 1 := by
  rcases v.lost_or_answered with ⟨f, -, lost⟩ | ⟨response, -, answered⟩
  · exact ((loses_iff_of_lostLast lost n text).1 loses).1
  · exact absurd loses (not_loses_of_allAnswered answered n text)

/-- A report that nothing went wrong and no page is to be visited leaves all but the state as it
was. -/
theorem find?_attach_of_done {r : Report} (good : r.error = none) (unapproved : r.approvalUrl = none)
    (response : Response) {key : String} (other : key ≠ Report.stateKey) :
    (r.attach response).metadata.find? key = response.metadata.find? key := by
  have silent : r.tells? key = none := by
    simp [Report.tells?, Report.errorText, good, unapproved, other]
  rw [r.find?_attach, silent, Option.none_or]

theorem contains_toResponse (r : Report) (key : String) :
    r.toResponse.metadata.contains key = (r.tells? key).isSome := by
  rw [Table.contains, r.find?_toResponse]

theorem shows_delivered {p : Progress} (brings : Brings v.call v.start bare p)
    (sent : v.final.sent = p.sent) {r : Report} (good : r.error = none)
    (page : r.approvalUrl = p.approvalUrl.map Url.render) : v.Shows (r.attach bare) .delivered := by
  have unapproved : r.approvalUrl = none := by rw [page, brings.unapproved, Option.map_none]
  have source := brings.source
  rw [← sent] at source
  exact ⟨bare, source, rfl, rfl, rfl, fun _ => find?_attach_of_done good unapproved bare⟩

theorem shows_pending {p : Progress} (asks : Asks v.call v.start p) {r : Report}
    (good : r.error = none) (page : r.approvalUrl = p.approvalUrl.map Url.render)
    (told : r.clientState = (v.call.sealedState p).1) : v.Shows r.toResponse .pending := by
  have blob : r.clientState ≠ none := by
    rw [told, sealedState, Ne, ClientState.encode_eq_none_iff, outgoingState_eq_empty_iff]
    exact fun blank => asks.requestToken blank.1
  have url : r.approvalUrl ≠ none := by
    rw [page, Ne, Option.map_eq_none_iff]
    exact asks.page
  rw [Option.ne_none_iff_isSome] at blob url
  refine ⟨⟨?_, rfl, rfl⟩, ?_, ?_, ?_⟩
  · change (if r.error.isSome then 403 else 200) = 200
    rw [good]
    rfl
  · rw [contains_toResponse]
    exact url
  · rw [contains_toResponse]
    exact blob
  · rw [contains_toResponse]
    change (r.error.map (·.code)).isSome = false
    rw [good]
    rfl

theorem shows_refused {p : Progress} (underway : Underway v.call v.start p) {r : Report}
    {refusal : Refusal} (error : r.error = some refusal)
    (page : r.approvalUrl = p.approvalUrl.map Url.render) : v.Shows r.toResponse .refused := by
  refine ⟨⟨?_, rfl, rfl⟩, ?_, ?_, ?_⟩
  · change (if r.error.isSome then 403 else 200) = 403
    rw [error]
    rfl
  · rw [contains_toResponse]
    change (r.error.map (·.code)).isSome = true
    rw [error]
    rfl
  · rw [contains_toResponse]
    change r.errorText.isSome = true
    rw [Report.errorText, error]
    rfl
  · rw [contains_toResponse]
    change r.approvalUrl.isSome = false
    rw [page, underway.unapproved]
    rfl

/-- Who is answered is shown some verdict. -/
theorem exists_shows (answered : (v.call.fetch v.start).1 = .ok response) :
    ∃ verdict, v.Shows response verdict := by
  obtain ⟨outcome, p, ended, told, sent, -⟩ := v.exists_ended
  rw [told] at answered
  rcases outcome with (r | f) | bare?
  · obtain rfl := Except.ok.inj answered
    exact ⟨.refused, shows_refused ended rfl rfl⟩
  · cases answered
  · obtain rfl := Except.ok.inj answered
    cases bare? with
    | none => exact ⟨.pending, shows_pending ended rfl rfl rfl⟩
    | some bare => exact ⟨.delivered, shows_delivered ended sent rfl rfl⟩

/-- Where replies and cached responses have no metadata, neither has the resource. -/
theorem metadata_of_source {sent : List Exchange}
    (plain : ∀ n response, (v.call.replies n).outcome = .ok response → response.metadata = .empty)
    (cache : PlainCache v.start.cache) (source : Source v.call v.start sent bare) :
    bare.metadata = .empty := by
  cases source with
  | sent _ _ answered => exact plain _ _ answered
  | cached held =>
    obtain ⟨inUse, key, entry, present, -, held, rfl⟩ := held
    exact cache inUse present _ ((Table.find?_eq_some_iff _).1 held)

/-- Without metadata from elsewhere, no two verdicts are shown at once. -/
theorem shows_unique
    (plain : ∀ n response, (v.call.replies n).outcome = .ok response → response.metadata = .empty)
    (cache : PlainCache v.start.cache) {verdict verdict' : Verdict}
    (shows : v.Shows response verdict) (shows' : v.Shows response verdict') : verdict = verdict' := by
  have silent (delivered : v.Shows response .delivered) {key : String}
      (other : key ≠ Report.stateKey) : response.metadata.contains key = false := by
    obtain ⟨bare, source, -, -, -, same⟩ := delivered
    rw [Table.contains, same key other, metadata_of_source plain cache source]
    rfl
  have undelivered (delivered : v.Shows response .delivered) :
      ¬ v.Shows response .pending ∧ ¬ v.Shows response .refused := by
    constructor
    · rintro ⟨-, page, -⟩
      exact Bool.false_ne_true ((silent delivered (by decide)).symm.trans page)
    · rintro ⟨-, error, -⟩
      exact Bool.false_ne_true ((silent delivered (by decide)).symm.trans error)
  have unrefused : v.Shows response .pending → ¬ v.Shows response .refused := by
    rintro ⟨good, -⟩ ⟨forbidden, -⟩
    cases good.status.symm.trans forbidden.status
  cases verdict <;> cases verdict'
  case delivered.pending => exact absurd shows' (undelivered shows).1
  case delivered.refused => exact absurd shows' (undelivered shows).2
  case pending.delivered => exact absurd shows (undelivered shows').1
  case refused.delivered => exact absurd shows (undelivered shows').2
  case pending.refused => exact absurd shows' (unrefused shows)
  case refused.pending => exact absurd shows (unrefused shows')
  all_goals rfl

/-- A call leaves a cache without metadata behind as it has found one. -/
theorem plainCache_final
    (plain : ∀ n response, (v.call.replies n).outcome = .ok response → response.metadata = .empty)
    (cache : PlainCache v.start.cache) : PlainCache v.final.cache := by
  obtain ⟨outcome, p, ended, -, -, left⟩ := v.exists_ended
  rw [left]
  rcases outcome with (r | f) | bare?
  · exact cache.gains ended.gains nofun
  · exact cache.gains ended.gains nofun
  · cases bare? with
    | none => exact cache.gains ended.gains nofun
    | some bare =>
      refine cache.gains ended.gains fun response same => ?_
      obtain rfl := Option.some.inj same
      exact metadata_of_source plain cache ended.source

/-- A call fails if and only if a request of it was not answered; that request is its last, and the
reason is the one given. Any other call is answered, in exactly one of three ways, if no metadata
comes from elsewhere; and none comes from the cache that it leaves. -/
theorem one_outcome
    (plain : ∀ n response, (v.call.replies n).outcome = .ok response → response.metadata = .empty)
    (cache : PlainCache v.start.cache) :
    (∀ f, (v.call.fetch v.start).1 = .error f ↔ ∃ n text, v.Loses n text ∧ f = .transport text) ∧
      (∀ n text, v.Loses n text → v.final.sent.length = n + 1) ∧
      (∀ response, (v.call.fetch v.start).1 = .ok response →
        ∃! verdict, v.Shows response verdict) ∧
      PlainCache v.final.cache := by
  refine ⟨v.error_iff_loses, fun _ _ => length_of_loses, fun response answered => ?_,
    plainCache_final plain cache⟩
  obtain ⟨verdict, shows⟩ := exists_shows answered
  exact ⟨verdict, shows, fun other shows' => shows_unique plain cache shows' shows⟩

/-- A visit that trades a request token, and loses the connection before the resource comes. -/
def interruptedVisit : Visit :=
  { photosVisit with call := { photosVisit.call with
    replies := fun n => if n = 0 then granted else ⟨.error "timeout", 0⟩ } }

/-- The trade is answered and the resource is not, so the call fails with its second request. Where the
resource comes, one verdict is shown. -/
theorem one_outcome_interrupted :
    (interruptedVisit.call.fetch interruptedVisit.start).1 = .error (.transport "timeout") ∧
      interruptedVisit.final.sent.length = 2 ∧
      ∃ response, (photosVisit.call.fetch photosVisit.start).1 = .ok response ∧
        ∃! verdict, photosVisit.Shows response verdict := by
  have plain (last : Reply) (bare : ∀ response, last.outcome = .ok response →
      response.metadata = .empty) (n : Nat) (response : Response)
      (replied : (if n = 0 then granted else last).outcome = .ok response) :
      response.metadata = .empty := by
    split at replied
    · rw [← Except.ok.inj replied]
    · exact bare response replied
  have sent : interruptedVisit.final.sent.length = 2 := by decide +kernel
  have loses : interruptedVisit.Loses 1 "timeout" := ⟨by rw [sent]; decide, rfl⟩
  have ends : (photosVisit.call.fetch photosVisit.start).1.isOk = true := by decide +kernel
  obtain ⟨fails, last, -, -⟩ := one_outcome (v := interruptedVisit)
    (plain ⟨.error "timeout", 0⟩ nofun) plainCache_none
  obtain ⟨-, -, shown, -⟩ := one_outcome (v := photosVisit)
    (plain found fun response same => by rw [← Except.ok.inj same]) plainCache_none
  obtain ⟨response, answered⟩ := exists_of_isOk ends
  exact ⟨(fails _).2 ⟨1, "timeout", loses, rfl⟩, last 1 "timeout" loses, response, answered,
    shown response answered⟩

end Visit
end DelegatedFetch
