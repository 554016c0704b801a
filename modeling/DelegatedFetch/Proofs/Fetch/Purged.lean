import Mathlib.Data.List.Basic
import DelegatedFetch.Proofs.Fetch.Recovery
import DelegatedFetch.Proofs.Fetch.Session

/-!
# A token that is given up is gone

Once an access token was rejected, or its session was not extended, the call is
rid of it, however it goes on: the store has it no more, nor has the state, and
no request for the resource is signed with it. What is in either place later,
was issued later.

A token that was rejected stays if its session was extended then; this is not
looked into here. An authorization header of the caller's own is sent as it is
where the service wants its parameters elsewhere, with any token in it.
-/

namespace DelegatedFetch

/-- A token was issued by one of some exchanges. -/
def IssuedIn (sent : List Exchange) (token : String) : Prop := ∃ e ∈ sent, e.issued? = some token

variable {token : String} {x e : Exchange} {sent before after earlier later : List Exchange}

theorem IssuedIn.snoc (h : IssuedIn sent token) : IssuedIn (sent ++ [x]) token := by
  obtain ⟨e, mem, issued⟩ := h
  exact ⟨e, List.mem_append_left _ mem, issued⟩

theorem IssuedIn.last (issued : x.issued? = some token) : IssuedIn (sent ++ [x]) token :=
  ⟨x, List.mem_append_right _ List.mem_cons_self, issued⟩

namespace Call

variable {c : Call} {s : Surroundings} {a b : Accessor} {p p' q : Progress} {purpose : Purpose}
  {g g' : Stage} {info : TokenInfo}

/-- All access tokens that a call has, and all that its requests for the resource have carried since
some time, were issued since then. -/
structure Purged (c : Call) (later : List Exchange) (p : Progress) : Prop where
  stored : ∀ info, c.stored? p.store = some info → IssuedIn later info.token
  carried : p.state.clearAccessToken = p.state ∨
    ∃ info, p.state.accessInfo? = some info ∧ IssuedIn later info.token
  requested : ∀ between e rest, later = between ++ e :: rest → e.purpose = .resource →
    ∀ token, c.Carries e token → IssuedIn between token

/-- The access token in use was issued by one of some exchanges. -/
def BoundIn (a : Accessor) (later : List Exchange) : Prop :=
  ∀ info source, a.token = .access info source → IssuedIn later info.token

theorem BoundIn.snoc (h : BoundIn a later) : BoundIn a (later ++ [x]) :=
  fun info source access => (h info source access).snoc

theorem BoundIn.setToken {source : TokenSource} (issued : IssuedIn later info.token) :
    BoundIn (a.setAccessToken info source) later := by
  intro _ _ access
  cases access
  exact issued

theorem BoundIn.forgotten : BoundIn a.clearToken later := by
  intro _ _ access
  cases access

/-- Right after a token was forgotten, there is none. -/
theorem Purged.begin (discarded : Discarded c q p) (idle : ∀ e ∈ later, e.purpose ≠ .resource) :
    Purged c later p where
  stored _ held := by cases discarded.gone.1.symm.trans held
  carried := .inl discarded.gone.2
  requested _ e _ split resource :=
    absurd resource (idle e (split ▸ List.mem_append_right _ List.mem_cons_self))

theorem Purged.alike (h : Purged c later q) (alike : Alike q p) : Purged c later p where
  stored := alike.store ▸ h.stored
  carried := alike.state ▸ h.carried
  requested := h.requested

theorem Purged.exchanged (h : Purged c later q) (bound : BoundIn a later)
    (exchanged : Exchanged c s a purpose q x p) (settled : purpose = .resource → a.token.IsSettled) :
    Purged c (later ++ [x]) p where
  stored info held := (h.stored info (exchanged.store ▸ held)).snoc
  carried := by
    rw [exchanged.state]
    refine h.carried.imp_right fun carried => ?_
    obtain ⟨info, held, issued⟩ := carried
    exact ⟨info, held, issued.snoc⟩
  requested between e rest split resource token carries := by
    rcases split_snoc split with ⟨rfl, rfl, -⟩ | ⟨init, -, earlier⟩
    · obtain rfl := exchanged.purpose.symm.trans resource
      obtain ⟨info, source, access, rfl⟩ :=
        (settled rfl).access ((exchanged.carries_iff token).1 carries)
      exact bound info source access
    · exact h.requested between e init earlier resource token carries

/-- A new token may be kept. -/
theorem Purged.kept {source : TokenSource} (h : Purged c later q) (issued : IssuedIn later info.token)
    (kept : Kept c info q source p) : Purged c later p := by
  refine ⟨fun found held => ?_, ?_, h.requested⟩
  · cases kept with
    | inStore _ set =>
      obtain rfl := Option.some.inj ((stored?_setToken set).symm.trans held)
      exact issued
    | inState => exact h.stored found held
  · cases kept with
    | inStore => exact .inl rfl
    | inState => exact .inr ⟨info, rfl, issued⟩

theorem Purged.afterForgetting (h : Purged c later p) (a : Accessor) :
    Purged c later (afterForgetting a p) where
  stored := h.stored
  carried := by
    rcases h.carried with cleared | issued
    · exact .inl (congrArg ClientState.clearRequestToken cleared)
    · exact .inr issued
  requested := h.requested

/-- What an accessor is built with was issued since, if it is an access token. -/
theorem Purged.boundIn (h : Purged c later p)
    (built : Accessor.build p.store (c.arguments p) c.token c.services p.state = .ok a) :
    BoundIn a later := by
  have same := c.arguments_kind p
  obtain ⟨service, tokenName, -⟩ := c.arguments_eq p
  intro info source access
  cases kind : c.args.kind with
  | signed =>
    obtain ⟨-, unbound, -⟩ := Accessor.build_signed (same.trans kind) built
    cases access.symm.trans unbound
  | delegated =>
    obtain ⟨provider, -, -, -, -, chosen⟩ := Accessor.build_delegated (same.trans kind) built
    have binds := chosen.binds
    rw [access] at binds
    cases binds with
    | stored _ held => exact h.stored info (stored?_eq_some_iff.2 (service ▸ tokenName ▸ held))
    | carriedAccess _ held =>
      rcases h.carried with cleared | ⟨found, carried, issued⟩
      · cases (accessInfo?_eq_none_of_cleared cleared).symm.trans held
      · exact Option.some.inj (carried.symm.trans held) ▸ issued

/-- Since some exchanges, a call is rid of the tokens that it had. -/
def PurgedSince (c : Call) (earlier : List Exchange) (p : Progress) : Prop :=
  ∃ later, p.sent = earlier ++ later ∧ Purged c later p

/-- And so is the accessor that it uses. -/
def BoundSince (c : Call) (earlier : List Exchange) (a : Accessor) (p : Progress) : Prop :=
  ∃ later, p.sent = earlier ++ later ∧ Purged c later p ∧ BoundIn a later

theorem BoundSince.purged (h : BoundSince c earlier a p) : PurgedSince c earlier p := by
  obtain ⟨later, split, purged, -⟩ := h
  exact ⟨later, split, purged⟩

theorem BoundSince.alike (h : BoundSince c earlier a q) (alike : Alike q p) :
    BoundSince c earlier a p := by
  obtain ⟨later, split, purged, bound⟩ := h
  exact ⟨later, alike.sent.trans split, purged.alike alike, bound⟩

theorem BoundSince.exchanged (h : BoundSince c earlier a q)
    (exchanged : Exchanged c s a purpose q x p) (settled : purpose = .resource → a.token.IsSettled) :
    BoundSince c earlier a p := by
  obtain ⟨later, split, purged, bound⟩ := h
  refine ⟨later ++ [x], ?_, purged.exchanged bound exchanged settled, bound.snoc⟩
  rw [exchanged.sent, split, List.append_assoc]

theorem BoundSince.unanswered {stop : Stop} (h : BoundSince c earlier a q)
    (unanswered : Unanswered c s a purpose q stop p)
    (settled : purpose = .resource → a.token.IsSettled) : BoundSince c earlier a p := by
  cases unanswered with
  | unsigned still => exact h.alike still.alike
  | unreached exchanged => exact h.exchanged exchanged settled

theorem PurgedSince.afterForgetting (h : PurgedSince c earlier p) (a : Accessor) :
    PurgedSince c earlier (afterForgetting a p) := by
  obtain ⟨later, split, purged⟩ := h
  exact ⟨later, split, purged.afterForgetting a⟩

/-- What holds when an access token was asked for. -/
def PurgedAfter (c : Call) (earlier : List Exchange) : Except Stop Accessor → Progress → Prop
  | .ok b, p => BoundSince c earlier b p
  | .error _, p => PurgedSince c earlier p

theorem BoundSince.extended {handle : String} {outcome : Except Stop Accessor}
    (h : BoundSince c earlier a q) (extended : Extended c s a handle q outcome p) :
    PurgedAfter c earlier outcome p := by
  cases extended with
  | unanswered unanswered => exact (h.unanswered unanswered (by simp)).purged
  | refused exchanged | unkept exchanged => exact (h.exchanged exchanged (by simp)).purged
  | @extended x info source p p' exchanged issued kept =>
    obtain ⟨later, split, purged, bound⟩ := h
    have told : x.issued? = some info.token := issued_of_tokenInfo? issued
    have issued : IssuedIn (later ++ [x]) (info.keepingHandle handle).token := .last told
    refine ⟨later ++ [x], ?_, ?_, .setToken issued⟩
    · rw [kept.sent, exchanged.sent, split, List.append_assoc]
    · exact (purged.exchanged bound exchanged (by simp)).kept issued kept

theorem BoundSince.traded {outcome : Except Stop Accessor} (h : BoundSince c earlier a q)
    (traded : Traded c s a q outcome p) : PurgedAfter c earlier outcome p := by
  cases traded with
  | foreign => exact h.purged
  | unanswered unanswered => exact (h.unanswered unanswered (by simp)).purged
  | refused exchanged => exact (h.exchanged exchanged (by simp)).purged
  | @traded x info source p p' exchanged issued kept =>
    obtain ⟨later, split, purged, bound⟩ := h
    have issued : IssuedIn (later ++ [x]) info.token := .last (issued_of_tokenInfo? issued)
    refine ⟨later ++ [x], ?_, ?_, .setToken issued⟩
    · rw [kept.sent, Call.afterForgetting, exchanged.sent, split, List.append_assoc]
    · exact ((purged.exchanged bound exchanged (by simp)).afterForgetting a).kept issued kept

theorem BoundSince.approved {outcome : Except Stop Unit} (h : BoundSince c earlier a q)
    (approved : Approved c s a q outcome p) : PurgedSince c earlier p := by
  cases approved with
  | foreign => exact h.purged
  | unanswered unanswered => exact (h.unanswered unanswered (by simp)).purged
  | refused exchanged => exact (h.exchanged exchanged (by simp)).purged
  | approved exchanged =>
    obtain ⟨later, split, purged⟩ := (h.exchanged exchanged (by simp)).purged
    exact ⟨later, split, purged.stored, .inl rfl, purged.requested⟩

theorem BoundSince.fetched {outcome : Except Stop Response} (h : BoundSince c earlier a q)
    (settled : a.token.IsSettled) (fetched : Fetched c s a q outcome p) :
    BoundSince c earlier a p := by
  cases fetched with
  | cached still => exact h.alike still.alike
  | unanswered unanswered => exact h.unanswered unanswered fun _ => settled
  | answered exchanged => exact h.exchanged exchanged fun _ => settled

/-- Wherever a call stands, it is rid of the tokens that it had. -/
def PurgedAt (c : Call) (earlier : List Exchange) : Stage → Progress → Prop
  | .attempting _, p | .forgetting _ _, p | .ended _, p => PurgedSince c earlier p
  | .built _ a, p | .choosing _ a, p | .delivering _ a, p | .extending _ a _, p =>
    BoundSince c earlier a p

theorem BoundSince.mended (h : BoundSince c earlier a p) (rejected : Bool) :
    PurgedAt c earlier (.mended rejected a) p := by
  cases rejected with
  | true => exact h.purged
  | false => exact h

theorem BoundSince.begin (split : q.sent = earlier ++ later) (discarded : Discarded c q p)
    (idle : ∀ e ∈ later, e.purpose ≠ .resource) :
    BoundSince c earlier a.clearToken p :=
  ⟨later, discarded.sent.trans split, .begin discarded idle, .forgotten⟩

theorem PurgedSince.discarded (h : PurgedSince c earlier q) (discarded : Discarded c q p) :
    BoundSince c earlier a.clearToken p := by
  obtain ⟨later, split, purged⟩ := h
  refine ⟨later, discarded.sent.trans split, ⟨fun info held => ?_, .inl discarded.gone.2,
    purged.requested⟩, .forgotten⟩
  cases discarded.gone.1.symm.trans held

theorem PurgedAt.move (sound : SoundAt c s g q) (clean : c.request.checkCaller = .ok ())
    (h : PurgedAt c earlier g q) (move : c.Move g q g' p) : PurgedAt c earlier g' p := by
  cases move with
  | build built =>
    obtain ⟨later, split, purged⟩ := h
    exact ⟨later, split, purged, purged.boundIn built⟩
  | unbuilt | sign | keep | expire | use => exact h
  | extend ran => exact BoundSince.mended (h.extended (extended_of_run sound.2 sound.1 ran)) _
  | unextended ran | unreached ran => exact h.extended (extended_of_run sound.2 sound.1 ran)
  | forget ran => exact BoundSince.mended (h.discarded (discarded_of_run ran)) _
  | approve kind unbound _ ran => exact h.approved (approved_of_run sound kind unbound ran)
  | trade unsettled ran => exact h.traded (traded_of_run sound (sound.2.delegated unsettled) ran)
  | startOver unsettled ran | untraded unsettled ran =>
    have left : PurgedSince c earlier _ :=
      h.traded (traded_of_run sound (sound.2.delegated unsettled) ran)
    exact left.afterForgetting _
  | deliver ran | undelivered ran | reject ran | unfetched ran =>
    exact (h.fetched sound.1 (fetched_of_run sound.2 clean sound.1 ran)).purged
  | outlive ran => exact h.fetched sound.1 (fetched_of_run sound.2 clean sound.1 ran)

/-- A token was rejected for the resource, and the call had not recovered before. -/
structure Rejection (c : Call) (sent before : List Exchange) (x : Exchange) (after : List Exchange)
    (token : String) : Prop where
  split : sent = before ++ x :: after
  unrecovered : Unrecovered before
  resource : x.purpose = .resource
  triggers : x.TriggersRecovery
  carries : c.Carries x token

/-- A session was extended by one of some exchanges. -/
def SessionExtended (sent : List Exchange) : Prop :=
  ∃ y ∈ sent, y.purpose = .extension ∧ y.issued? ≠ none

/-- The rejected token is still to be mended; or the call has failed before it was. -/
inductive Pending (after : List Exchange) : Stage → Prop
  | extending {a : Accessor} {handle : String} (last : after = []) :
      Pending after (.extending true a handle)
  | forgetting {a : Accessor} (idle : ∀ y ∈ after, y.purpose ≠ .resource) :
      Pending after (.forgetting true a)
  | failed {f : Failure} : Pending after (.ended (.error (.failed f)))

/-- What becomes of a call after a token was rejected. -/
def MendedAt (c : Call) (before : List Exchange) (x : Exchange) (after : List Exchange) (g : Stage)
    (p : Progress) : Prop :=
  SessionExtended after ∨ Pending after g ∨ PurgedAt c (before ++ [x]) g p

/-- A rejection is made by the last exchange, or it was made before. -/
theorem Rejection.cases_of_notes (notes : Notes c purpose q p)
    (h : Rejection c p.sent before x after token) :
    (∃ init more, after = init ++ more ∧ p.sent = q.sent ++ more ∧
        Rejection c q.sent before x init token) ∨
      before = q.sent ∧ after = [] ∧ p.sent = q.sent ++ [x] := by
  cases notes with
  | nothing _ same =>
    refine .inl ⟨after, [], (List.append_nil _).symm, ?_, ?_⟩
    · rw [same, List.append_nil]
    · exact same ▸ h
  | @exchange y _ _ sent =>
    have split := h.split
    rw [sent] at split
    rcases split_snoc split with ⟨rfl, rfl, rfl⟩ | ⟨init, rfl, earlier⟩
    · exact .inr ⟨rfl, rfl, sent⟩
    · exact .inl ⟨init, [y], rfl, sent, earlier, h.unrecovered, h.resource, h.triggers, h.carries⟩

/-- A token that the last exchange rejected is about to be mended. -/
theorem Rejection.pending (sound : SoundAt c s g q) (clean : c.request.checkCaller = .ok ())
    (recovered : RecoveredAt g q) (move : c.Move g q g' p)
    (h : Rejection c p.sent q.sent x [] token) : Pending [] g' := by
  have other {purpose : Purpose} (notes : Notes c purpose q p) : purpose = .resource :=
    (notes.purpose_of_mem h.split List.mem_cons_self).symm.trans h.resource
  have unfinal {a : Accessor} {response : Response} (settled : a.token.IsSettled)
      (fetched : Fetched c s a q (.ok response) p)
      (final : ∀ failure, response.resourceFailure? a.hasAccessToken = some failure →
        failure.recoverable = false) : False := by
    cases fetched with
    | cached still => exact absurd (still.sent.symm.trans h.split) (by simp)
    | answered exchanged answered =>
      obtain rfl := exchanged.last_unique h.split
      obtain ⟨info, source, access, -⟩ := settled.access ((exchanged.carries_iff token).1 h.carries)
      have used : a.hasAccessToken = true := by
        rw [Accessor.hasAccessToken_eq, access]
        rfl
      exact exchanged.not_triggersRecovery answered used final h.triggers
  cases move with
  | build | unbuilt | sign | keep | expire | use => exact absurd h.split (by simp)
  | forget ran => exact absurd ((discarded_of_run ran).sent.symm.trans h.split) (by simp)
  | extend ran | unextended ran | unreached ran =>
    cases other (extended_of_run sound.2 sound.1 ran).notes
  | approve kind unbound _ ran =>
    cases other (approved_of_run sound kind unbound ran).notes
  | trade unsettled ran =>
    cases other (traded_of_run sound (sound.2.delegated unsettled) ran).notes
  | startOver unsettled ran | untraded unsettled ran =>
    have traded := traded_of_run sound (sound.2.delegated unsettled) ran
    cases other traded.notes.afterForgetting
  | deliver ran good =>
    refine (unfinal sound.1 (fetched_of_run sound.2 clean sound.1 ran) fun failure failed => ?_).elim
    cases good.symm.trans failed
  | undelivered ran failed final =>
    rcases final with unrecoverable | rfl
    · refine (unfinal sound.1 (fetched_of_run sound.2 clean sound.1 ran) fun failure same => ?_).elim
      obtain rfl := Option.some.inj (failed.symm.trans same)
      exact unrecoverable
    · cases recovered.1 h.unrecovered
  | outlive => exact .extending rfl
  | reject => exact .forgetting (by simp)
  | unfetched ran =>
    have fetched := fetched_of_run sound.2 clean sound.1 ran
    cases fetched with
    | unanswered unanswered =>
      cases unanswered with
      | unsigned still => exact absurd (still.sent.symm.trans h.split) (by simp)
      | unreached => exact .failed

/-- What becomes of a rejected token is settled by the part of the call that mends it. -/
theorem Pending.move {init more : List Exchange} (sound : SoundAt c s g q)
    (pending : Pending init g) (split : q.sent = before ++ x :: init)
    (sent : p.sent = q.sent ++ more) (move : c.Move g q g' p) :
    MendedAt c before x (init ++ more) g' p := by
  cases pending with
  | extending last =>
    obtain rfl := last
    cases move with
    | extend ran =>
      cases extended_of_run sound.2 sound.1 ran with
      | @extended y _ _ p _ exchanged issued kept =>
        have told := issued_of_tokenInfo? issued
        obtain rfl := List.append_cancel_left (sent.symm.trans (kept.sent.trans exchanged.sent))
        exact .inl ⟨y, List.mem_cons_self, exchanged.purpose, by simp [told]⟩
    | unextended ran =>
      have notes := (extended_of_run sound.2 sound.1 ran).notes
      refine .inr (.inl (.forgetting fun y mem => ?_))
      rw [notes.purpose_of_mem sent mem]
      decide
    | unreached => exact .inr (.inl .failed)
  | @forgetting a idle =>
    cases move with
    | forget ran =>
      have discarded := discarded_of_run ran
      obtain rfl := List.append_right_eq_self.1 (sent.symm.trans discarded.sent)
      rw [List.append_nil]
      rw [List.append_cons] at split
      exact .inr (.inr (BoundSince.begin (a := a) split discarded idle).purged)
  | failed => cases move

/-- Each token that was rejected is mended. -/
def RejectedAt (c : Call) (g : Stage) (p : Progress) : Prop :=
  ∀ before x after token, Rejection c p.sent before x after token → MendedAt c before x after g p

theorem RejectedAt.move (sound : SoundAt c s g q) (clean : c.request.checkCaller = .ok ())
    (recovered : RecoveredAt g q) (h : RejectedAt c g q) (move : c.Move g q g' p) :
    RejectedAt c g' p := by
  intro before x after token rejection
  obtain ⟨purpose, notes⟩ := move.notes sound clean
  rcases rejection.cases_of_notes notes with ⟨init, more, rfl, sent, earlier⟩ | ⟨rfl, rfl, -⟩
  · rcases h before x init token earlier with extended | pending | purged
    · obtain ⟨y, mem, extended⟩ := extended
      exact .inl ⟨y, List.mem_append_left _ mem, extended⟩
    · exact pending.move sound earlier.split sent move
    · exact .inr (.inr (purged.move sound clean move))
  · exact .inr (.inl (rejection.pending sound clean recovered move))

theorem Reaches.rejected (answers : OnlySuccesses s.cache) (h : Reaches c s g p) :
    RejectedAt c g p := by
  induction h with
  | unchecked | start =>
    intro before x after token rejection
    have split : [] = before ++ x :: after := rejection.split
    simp at split
  | move before move ih =>
    exact ih.move before.sound (before.clean move) (before.recovered answers) move

/-- A call is to extend the session of the token that it finds, since the token has expired, and is
refused. -/
structure Unextended (c : Call) (s : Surroundings) (a : Accessor) (info : TokenInfo)
    (handle : String) : Prop where
  clean : c.request.checkCaller = .ok ()
  identity : c.checkIdentity = .ok ()
  built : Accessor.build s.store c.args c.token c.services (c.incomingState s.clock.millis) = .ok a
  access : ∃ source, a.token = .access info source
  expired : info.isExpired s.clock.millis = true
  held : info.sessionHandle = some handle
  refused : ∃ r, (c.extendSession a handle (c.begun s)).1 = .error (.refused r)

/-- The token is still to be forgotten. -/
inductive Awaiting (c : Call) (s : Surroundings) (a : Accessor) (handle : String) :
    Stage → Progress → Prop
  | attempting : Awaiting c s a handle (.attempting false) (c.begun s)
  | built : Awaiting c s a handle (.built false a) (c.begun s)
  | extending : Awaiting c s a handle (.extending false a handle) (c.begun s)
  | forgetting {b : Accessor} {p : Progress} (idle : ∀ y ∈ p.sent, y.purpose ≠ .resource) :
      Awaiting c s a handle (.forgetting false b) p

theorem Awaiting.move {handle : String} (sound : SoundAt c s g q)
    (unextended : Unextended c s a info handle) (h : Awaiting c s a handle g q)
    (move : c.Move g q g' p) : Awaiting c s a handle g' p ∨ PurgedAt c [] g' p := by
  obtain ⟨-, -, built, ⟨source, access⟩, expired, held, r, refused⟩ := unextended
  have handle_of : a.sessionHandle? = some handle :=
    (Accessor.sessionHandle?_of_access access).trans held
  have late : a.isExpired s.clock.millis = true := by
    rw [Accessor.isExpired_eq, access]
    exact expired
  cases h with
  | attempting =>
    cases move with
    | build built' =>
      obtain rfl := Except.ok.inj (built'.symm.trans built)
      exact .inl .built
    | unbuilt unbuilt => cases unbuilt.symm.trans built
  | built =>
    cases move with
    | sign kind => cases (sound.2.alone kind).1.symm.trans access
    | keep kind good =>
      rcases good with recovered | fresh | unheld
      · cases recovered
      · cases fresh.symm.trans late
      · cases unheld.symm.trans handle_of
    | expire _ held' =>
      obtain rfl := Option.some.inj (held'.symm.trans handle_of)
      exact .inl .extending
  | extending =>
    cases move with
    | extend ran | unreached ran => cases (congrArg Prod.fst ran).symm.trans refused
    | unextended ran =>
      have notes := (extended_of_run sound.2 sound.1 ran).notes
      refine .inl (.forgetting fun y mem => ?_)
      rw [notes.purpose_of_mem (List.nil_append _).symm mem]
      decide
  | forgetting idle =>
    cases move with
    | forget ran =>
      exact .inr (BoundSince.begin (List.nil_append _).symm (discarded_of_run ran) idle)

theorem Reaches.unextended {handle : String} (unextended : Unextended c s a info handle)
    (h : Reaches c s g p) : Awaiting c s a handle g p ∨ PurgedAt c [] g p := by
  induction h with
  | unchecked refused =>
    rcases refused with unclean | unknown
    · cases unclean.symm.trans unextended.clean
    · cases unknown.symm.trans unextended.identity
  | start => exact .inl .attempting
  | move before move ih =>
    rcases ih with awaiting | purged
    · exact awaiting.move before.sound unextended move
    · exact .inr (purged.move before.sound (before.clean move) move)

/-- A call is to give up a token, after some exchanges and before others: the provider has rejected it
for the resource, and its session was not extended then; or it had expired when it was found, and its
session was not extended. -/
inductive GivesUp (c : Call) (s : Surroundings) (token : String) :
    List Exchange → List Exchange → Prop
  | rejected {before after : List Exchange} {x : Exchange} (unrecovered : Unrecovered before)
      (resource : x.purpose = .resource) (triggers : x.TriggersRecovery)
      (carries : c.Carries x token) (unextended : ¬ SessionExtended after) :
      GivesUp c s token (before ++ [x]) after
  | unextended {a : Accessor} {info : TokenInfo} {handle : String} {later : List Exchange}
      (same : info.token = token) (unextended : Unextended c s a info handle) :
      GivesUp c s token [] later

/-- A call that was answered is rid of a token that it was to give up. -/
theorem Reaches.purged {outcome : Except Stop (Option Response)} (answers : OnlySuccesses s.cache)
    (h : Reaches c s (.ended outcome) p) (answered : ∀ f, outcome ≠ .error (.failed f))
    (sent : p.sent = earlier ++ later) (gives : GivesUp c s token earlier later) :
    Purged c later p := by
  have purged : PurgedSince c earlier p := by
    cases gives with
    | @rejected before _ x unrecovered resource triggers carries unextended =>
      have split : p.sent = before ++ x :: later := sent.trans (List.append_cons before x later).symm
      rcases h.rejected answers before x later token
        ⟨split, unrecovered, resource, triggers, carries⟩ with extended | pending | purged
      · exact absurd extended unextended
      · cases pending
        exact absurd rfl (answered _)
      · exact purged
    | unextended same unextended =>
      rcases h.unextended unextended with awaiting | purged
      · cases awaiting
      · exact purged
  obtain ⟨later', split, purged⟩ := purged
  obtain rfl := List.append_cancel_left (sent.symm.trans split)
  exact purged

end Call

namespace Visit

open Call

variable {v : Visit} {response : Response}

/-- When a call was answered, a token that it was to give up is in neither place: the token in the
store and the token in the state that is told, if there are any, were issued later, and so was each
token that a later request for the resource is signed with. In such a request the token is found at
most where the caller has written it into a header of its own that is not replaced. -/
theorem given_up_gone (answers : OnlySuccesses v.start.cache)
    (answered : (v.call.fetch v.start).1 = .ok response) (sent : v.final.sent = earlier ++ later)
    (gives : GivesUp v.call v.start token earlier later) (unissued : ¬ IssuedIn later token) :
    (∀ info, v.call.stored? v.final.store = some info → info.token ≠ token) ∧
      (∀ now, (v.told now).clearAccessToken = v.told now ∨
        ∃ info, (v.told now).accessInfo? = some info ∧ info.token ≠ token) ∧
      ∀ e ∈ later, e.purpose = .resource → ¬ v.call.Carries e token ∧
        (token ∈ tokensIn e.request.allPairs →
          v.call.declaredPlacement .resource ≠ .ok .authHeader ∧
            token ∈ tokensIn v.call.request.headerPairs) := by
  obtain ⟨outcome, p, entropy, reached, unfailed, left⟩ := reaches_of_answered answered
  have same : v.final = { p with entropy } := left
  have purged : Purged v.call later p := by
    rw [same] at sent
    exact reached.purged answers unfailed sent gives
  have other {token' : String} (issued : IssuedIn later token') : token' ≠ token := by
    rintro rfl
    exact unissued issued
  have state : v.final.state = p.state := by rw [same]
  refine ⟨fun info held => ?_, fun now => ?_, fun e mem resource => ?_⟩
  · rw [same] at held
    exact other (purged.stored info held)
  · rcases purged.carried with cleared | ⟨info, held, issued⟩
    · exact .inl (clearAccessToken_told (by rw [state, cleared]) now)
    · rcases v.told_cases now with told | blank
      · rw [told, state]
        exact .inr ⟨info, accessInfo?_outgoingState held, other issued⟩
      · rw [blank]
        exact .inl rfl
  · obtain ⟨between, rest, split⟩ := List.append_of_mem mem
    have unsigned : ¬ v.call.Carries e token := by
      intro carries
      obtain ⟨y, among, issued⟩ := purged.requested between e rest split resource token carries
      exact unissued ⟨y, split ▸ List.mem_append_left _ among, issued⟩
    refine ⟨unsigned, fun named => ?_⟩
    rw [split, ← List.append_assoc] at sent
    exact ((mem_tokensIn_resource_iff sent resource).1 named).resolve_left unsigned

/-- A response that is no 401, and reports in its challenge that a token was revoked. -/
def revocation : Response :=
  { status := 403, headers := [("WWW-Authenticate", "OAuth oauth_problem=\"token_revoked\"")] }

theorem rejectsToken_revocation : revocation.RejectsToken :=
  ⟨rfl, .inl ⟨"token_revoked", .inl (by decide +kernel), .inr (by decide +kernel)⟩⟩

/-- A visit that is told that its stored token was revoked, and goes on without one. The token is
named in the header of its own request, too. -/
def revokedVisit (placement : Placement) : Visit where
  call :=
    let call := headedCall placement "OAuth oauth_token=\"token\"" fun n =>
      if n = 0 then ⟨.ok revocation, 0⟩ else found
    { call with args := { call.args with tokenUse := .ifAvailable } }
  start := photoStart

/-- It asks for the resource with the stored token, and then once more. -/
theorem sent_revokedVisit (placement : Placement) (fits : placement ≠ .postBody) :
    ∃ x e, (revokedVisit placement).final.sent = [x] ++ e :: [] ∧ x.purpose = .resource ∧
      x.response = some revocation ∧ e.purpose = .resource ∧ e.response = some { status := 200 } := by
  have told : (revokedVisit placement).final.sent.map (fun e => (e.purpose, e.response)) =
      [(.resource, some revocation), (.resource, some { status := 200 })] := by
    cases placement with
    | postBody => exact absurd rfl fits
    | _ => decide +kernel
  obtain ⟨x, e, sent, first, second⟩ := eq_pair_of_map told
  exact ⟨x, e, sent, congrArg Prod.fst first, congrArg Prod.snd first, congrArg Prod.fst second,
    congrArg Prod.snd second⟩

/-- It is answered, and the token is gone that stood in the store. -/
theorem end_revokedVisit (placement : Placement) (fits : placement ≠ .postBody) :
    (∃ response, ((revokedVisit placement).call.fetch photoStart).1 = .ok response) ∧
      (revokedVisit placement).call.stored? (revokedVisit placement).final.store = none ∧
      (revokedVisit placement).call.standing? photoStart (revokedVisit placement).final.sent =
        some "token" := by
  have answered : ((revokedVisit placement).call.fetch photoStart).1.isOk = true := by
    cases placement with
    | postBody => exact absurd rfl fits
    | _ => decide +kernel
  refine ⟨exists_of_isOk answered, ?_⟩
  cases placement with
  | postBody => exact absurd rfl fits
  | _ => decide +kernel

/-- The stored token is the one that it gives up. -/
theorem givesUp_revokedVisit (placement : Placement) (fits : placement ≠ .postBody) :
    ∃ x e, (revokedVisit placement).final.sent = [x] ++ e :: [] ∧ x.response = some revocation ∧
      GivesUp (revokedVisit placement).call photoStart "token" [x] [e] ∧ e.purpose = .resource ∧
      ¬ IssuedIn [e] "token" := by
  obtain ⟨-, gone, stands⟩ := end_revokedVisit placement fits
  obtain ⟨x, e, sent, asked, refused, again, delivered⟩ := sent_revokedVisit placement fits
  have renewed : Renewed (revokedVisit placement).call photoStart (revokedVisit placement).final :=
    renewed_fetch _ onlySuccesses_none
  refine ⟨x, e, sent, refused, ?_, again, ?_⟩
  · rcases renewed.accounted gone "token" (Option.some_ne_none "ann") stands with
      ⟨_, later, cause, parts, ⟨before, y, after, rfl, -, rejects, carries⟩, reason⟩ |
      ⟨-, info, held, -, session⟩
    · have mem : y ∈ [x, e] := by
        change y ∈ [x] ++ e :: []
        rw [← sent, parts]
        simp
      rcases List.mem_pair.1 mem with rfl | rfl
      · rcases reason with rfl | ⟨client, -⟩
        · refine .rejected unrecovered_nil asked
            ⟨_, refused, .inl ⟨asked, rejectsToken_revocation⟩⟩ carries ?_
          rintro ⟨z, mem, extension, -⟩
          rw [List.mem_singleton.1 mem, again] at extension
          cases extension
        · cases client
      · obtain ⟨response, answered, ⟨-, failure, failed, -⟩ | ⟨extension, -⟩⟩ := rejects
        · obtain rfl := Option.some.inj (answered.symm.trans delivered)
          cases failed
        · cases again.symm.trans extension
    · obtain rfl := Option.some.inj held
      exact absurd rfl session
  · rintro ⟨z, mem, issued⟩
    rw [List.mem_singleton.1 mem, Exchange.issued?_of_purpose (by simp [again])] at issued
    cases issued

/-- Neither the store nor the state that is told has the token that was revoked, nor has the request
that follows, where the header is replaced that names it. -/
theorem given_up_gone_revoked : ∃ x e response,
    (revokedVisit .authHeader).final.sent = [x] ++ e :: [] ∧
      ((revokedVisit .authHeader).call.fetch (revokedVisit .authHeader).start).1 = .ok response ∧
      x.response = some revocation ∧
      GivesUp (revokedVisit .authHeader).call photoStart "token" [x] [e] ∧
      (∀ info, (revokedVisit .authHeader).call.stored? (revokedVisit .authHeader).final.store =
        some info → info.token ≠ "token") ∧
      (∀ now, ((revokedVisit .authHeader).told now).clearAccessToken =
          (revokedVisit .authHeader).told now ∨
        ∃ info, ((revokedVisit .authHeader).told now).accessInfo? = some info ∧
          info.token ≠ "token") ∧
      e.purpose = .resource ∧ "token" ∉ tokensIn e.request.allPairs := by
  obtain ⟨x, e, sent, refused, gives, resource, unissued⟩ :=
    givesUp_revokedVisit .authHeader (by decide)
  obtain ⟨⟨response, answered⟩, -⟩ := end_revokedVisit .authHeader (by decide)
  obtain ⟨stored, told, requests⟩ := given_up_gone onlySuccesses_none answered sent gives unissued
  obtain ⟨-, kept⟩ := requests e List.mem_cons_self resource
  exact ⟨x, e, response, sent, answered, refused, gives, stored, told, resource,
    fun named => (kept named).1 rfl⟩

/-- Where the query takes the parameters, the request that follows has the token in its header,
though it was not issued again. -/
theorem keeps_revoked_header : ∃ x e response,
    (revokedVisit .uriQuery).final.sent = [x] ++ e :: [] ∧
      ((revokedVisit .uriQuery).call.fetch (revokedVisit .uriQuery).start).1 = .ok response ∧
      x.response = some revocation ∧
      GivesUp (revokedVisit .uriQuery).call photoStart "token" [x] [e] ∧
      ¬ IssuedIn [e] "token" ∧ e.purpose = .resource ∧ "token" ∈ tokensIn e.request.allPairs := by
  obtain ⟨x, e, sent, refused, gives, resource, unissued⟩ :=
    givesUp_revokedVisit .uriQuery (by decide)
  obtain ⟨⟨response, answered⟩, -⟩ := end_revokedVisit .uriQuery (by decide)
  refine ⟨x, e, response, sent, answered, refused, gives, unissued, resource, ?_⟩
  rw [Visit.final] at sent
  rw [mem_tokensIn_resource_iff sent resource]
  exact .inr ⟨by decide +kernel, by decide +kernel⟩

end Visit
end DelegatedFetch
