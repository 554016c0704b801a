import DelegatedFetch.Proofs.Fetch.Latest
import DelegatedFetch.Proofs.Fetch.Recovery
import DelegatedFetch.Proofs.Fetch.Session

/-!
# Issued tokens are not lost

The access token that was issued last is kept until the end of the call, with
its secret, its handle and its expiry: in the store or in the caller's state, as
tokens are kept. This holds however the call goes on, and also if it is refused
later. Only when the call forgets the token for a reason, both places are empty.
-/

namespace DelegatedFetch

namespace Call

variable {c : Call} {s : Surroundings} {a : Accessor} {p p' q : Progress} {e x : Exchange}
  {purpose : Purpose} {g g' : Stage} {before after : List Exchange} {info : TokenInfo}

/-- What an exchange issues: what its reply tells, at the time it comes. A session handle that the
request presented stays if the reply names no other. -/
inductive Issues (c : Call) (s : Surroundings) (before : List Exchange) (e : Exchange) :
    TokenInfo → Prop
  | traded {info : TokenInfo} (purpose : e.purpose = .accessToken)
      (read : e.tokenInfo? (c.clockAfter s (before.length + 1)).millis = some info) :
      Issues c s before e info
  | extended {info : TokenInfo} {handle : String} {g : Signing} (purpose : e.purpose = .extension)
      (read : e.tokenInfo? (c.clockAfter s (before.length + 1)).millis = some info)
      (of : g.Of c s before e.purpose e.request)
      (presented : (Parameter.sessionHandle, handle) ∈ g.extra) :
      Issues c s before e (info.keepingHandle handle)

/-- A request to extend a session presents one handle only. -/
theorem Signing.Of.handle_unique {g g' : Signing} {request : Request} {handle handle' : String}
    (h : g.Of c s before .extension request) (h' : g'.Of c s before .extension request)
    (mem : (Parameter.sessionHandle, handle) ∈ g.extra)
    (mem' : (Parameter.sessionHandle, handle') ∈ g'.extra) : handle = handle' := by
  have bare := Except.ok.inj (h.bare.symm.trans h'.bare)
  have placement := Except.ok.inj (h.placement.symm.trans h'.placement)
  have count := Request.count_sessionHandle_signWith h.extra h.fits h.signed handle
  have count' := Request.count_sessionHandle_signWith h'.extra h'.fits h'.signed handle
  rw [bare, placement, count', Nat.add_left_cancel_iff] at count
  have shared : (Parameter.sessionHandle, handle) ∈ g'.extra := by
    rw [← List.count_pos_iff, count]
    exact List.count_pos_iff.2 mem
  obtain ⟨a, -, -, -, extra⟩ := h'.generated
  rw [extra, extraPairs, Option.mem_toList] at shared mem'
  exact congrArg Prod.snd (Option.some.inj (shared.symm.trans mem'))

/-- An exchange issues one token only. -/
theorem Issues.unique {i j : TokenInfo} (h : Issues c s before e i) (h' : Issues c s before e j) :
    i = j := by
  cases h with
  | traded purpose read =>
    cases h' with
    | traded _ read' => exact Option.some.inj (read.symm.trans read')
    | extended purpose' => cases purpose.symm.trans purpose'
  | extended purpose read of presented =>
    cases h' with
    | traded purpose' => cases purpose.symm.trans purpose'
    | extended _ read' of' presented' =>
      rw [purpose] at of of'
      rw [Option.some.inj (read.symm.trans read'), of.handle_unique of' presented presented']

theorem Exchanged.clock_eq (h : Exchanged c s a purpose q x p)
    (time : q.clock = c.clockAfter s q.sent.length) :
    p.clock = c.clockAfter s (q.sent.length + 1) := by
  rw [h.clock, time, clockAfter]

theorem Exchanged.issues_traded (h : Exchanged c s a .accessToken q x p)
    (time : q.clock = c.clockAfter s q.sent.length)
    (issued : x.tokenInfo? p.clock.millis = some info) : Issues c s q.sent x info :=
  .traded h.purpose (h.clock_eq time ▸ issued)

theorem Exchanged.issues_extended {handle : String} (h : Exchanged c s a .extension q x p)
    (time : q.clock = c.clockAfter s q.sent.length) (coherent : a.Coherent)
    (held : a.sessionHandle? = some handle)
    (issued : x.tokenInfo? p.clock.millis = some info) :
    Issues c s q.sent x (info.keepingHandle handle) := by
  obtain ⟨g, same, of⟩ := h.signed
  refine .extended h.purpose (h.clock_eq time ▸ issued) of ?_
  obtain ⟨b, coherent', -, bound, extra⟩ := of.generated
  have presented : b.sessionHandle? = some handle := by
    rw [coherent'.sessionHandle?_eq, bound, same, ← held, coherent.sessionHandle?_eq]
  rw [extra, h.purpose, extraPairs, presented]
  exact List.mem_singleton.2 rfl

/-- An exchange issued a token, and none after it did. -/
structure LastIssue (sent before : List Exchange) (e : Exchange) (after : List Exchange) :
    Prop where
  split : sent = before ++ e :: after
  issued : e.issued? ≠ none
  last : ∀ y ∈ after, y.issued? = none

theorem LastIssue.of_silent {sent : List Exchange} (h : LastIssue (sent ++ [x]) before e after)
    (silent : x.issued? = none) : ∃ init, after = init ++ [x] ∧ LastIssue sent before e init := by
  rcases split_snoc h.split with ⟨-, rfl, -⟩ | ⟨init, ends, earlier⟩
  · exact absurd silent h.issued
  · exact ⟨init, ends, earlier, h.issued, fun y mem =>
      h.last y (ends ▸ List.mem_append_left _ mem)⟩

theorem LastIssue.of_issued {sent : List Exchange} (h : LastIssue (sent ++ [x]) before e after)
    (issued : x.issued? ≠ none) : before = sent ∧ e = x ∧ after = [] := by
  rcases split_snoc h.split with last | ⟨init, ends, -⟩
  · exact last
  · exact absurd (h.last x (ends ▸ List.mem_append_right _ List.mem_cons_self)) issued

theorem LastIssue.latestIssued {sent : List Exchange} (h : LastIssue sent before e after) :
    latestIssued sent ≠ none := by
  obtain ⟨split, issued, -⟩ := h
  rw [DelegatedFetch.latestIssued, ne_eq, List.findSome?_eq_none_iff]
  intro silent
  refine issued (silent e (List.mem_reverse.2 ?_))
  rw [split]
  exact List.mem_append_right _ List.mem_cons_self

theorem not_lastIssue_nil : ¬ LastIssue [] before e after := by
  intro h
  simpa using h.split

/-- A token that was issued is forgotten: it cannot be kept, or the call recovers after it was
issued, and no other is issued then. -/
def Forgone (c : Call) (before : List Exchange) (e : Exchange) (after : List Exchange) : Prop :=
  (c.policy.persistence = .server ∧ c.token.viewer = none) ∨
    Unrecovered (before ++ [e]) ∧ ¬ Unrecovered after

theorem Forgone.mono {init : List Exchange} (h : Forgone c before e init) (earlier : init <+: after) :
    Forgone c before e after := by
  obtain ⟨rest, rfl⟩ := earlier
  refine h.imp_right fun recovered => ⟨recovered.1, fun none => recovered.2 ?_⟩
  exact (unrecovered_append.1 none).1

/-- After an exchange the call comes to where it forgets its token. -/
def DiscardsAfter (c : Call) (s : Surroundings) (before : List Exchange) (e : Exchange)
    (after : List Exchange) : Prop :=
  ∃ rejected a q init, Reaches c s (.forgetting rejected a) q ∧ q.sent = before ++ e :: init ∧
    init <+: after

theorem DiscardsAfter.snoc (h : DiscardsAfter c s before e after) :
    DiscardsAfter c s before e (after ++ [x]) := by
  obtain ⟨rejected, a, q, init, reached, split, earlier⟩ := h
  exact ⟨rejected, a, q, init, reached, split, earlier.trans (List.prefix_append _ _)⟩

/-- A token is where tokens are kept, and if that is the store, the state has none. -/
def Rests (c : Call) (info : TokenInfo) (p : Progress) : Prop :=
  match c.policy.persistence with
  | .server => c.stored? p.store = some info ∧ p.state.clearAccessToken = p.state
  | .client => p.state.accessInfo? = some info

/-- A request token that was to be traded is not in the state any more. -/
def Spent (p : Progress) : Prop :=
  (∃ x ∈ p.sent, x.purpose = .accessToken) → p.state.requestToken = none

/-- The token that was issued last is kept, or the call has forgotten it for a reason. -/
structure Banked (c : Call) (s : Surroundings) (p : Progress) : Prop where
  gone : ∀ before e after, LastIssue p.sent before e after → Forgone c before e after →
    Gone c p ∧ DiscardsAfter c s before e after
  kept : ∀ before e after, LastIssue p.sent before e after → ¬ Forgone c before e after →
    ∃ info, Issues c s before e info ∧ Rests c info p

/-- If the token that was issued last is kept, an access token is in use. -/
def InHand (c : Call) (a : Accessor) (p : Progress) : Prop :=
  ∀ before e after, LastIssue p.sent before e after → ¬ Forgone c before e after →
    ∃ info source, a.token = .access info source

/-- If a token was issued, it is to be forgotten. -/
def Lost (c : Call) (p : Progress) : Prop :=
  ∀ before e after, LastIssue p.sent before e after → Forgone c before e after

theorem Gone.alike (h : Gone c q) (alike : Alike q p) : Gone c p := by
  rw [Gone, alike.store, alike.state]
  exact h

theorem Rests.alike (h : Rests c info q) (alike : Alike q p) : Rests c info p := by
  rw [Rests, alike.store, alike.state]
  exact h

theorem Banked.alike (h : Banked c s q) (alike : Alike q p) : Banked c s p where
  gone before e after last forgone :=
    (h.gone before e after (alike.sent ▸ last) forgone).imp_left fun gone => gone.alike alike
  kept before e after last held := by
    obtain ⟨info, issues, rests⟩ := h.kept before e after (alike.sent ▸ last) held
    exact ⟨info, issues, rests.alike alike⟩

/-- An exchange that issues nothing changes nothing, unless it makes the call recover from a token
that it has kept. -/
theorem Banked.exchanged (h : Banked c s q) (exchanged : Exchanged c s a purpose q x p)
    (silent : x.issued? = none) (same : ∀ before e after, LastIssue q.sent before e after →
      Forgone c before e (after ++ [x]) → Forgone c before e after) : Banked c s p := by
  constructor
  · intro before e after last forgone
    rw [exchanged.sent] at last
    obtain ⟨init, rfl, earlier⟩ := last.of_silent silent
    obtain ⟨gone, discards⟩ := h.gone before e init earlier (same before e init earlier forgone)
    rw [Gone, exchanged.store, exchanged.state]
    exact ⟨gone, discards.snoc⟩
  · intro before e after last held
    rw [exchanged.sent] at last
    obtain ⟨init, rfl, earlier⟩ := last.of_silent silent
    obtain ⟨info, issues, rests⟩ :=
      h.kept before e init earlier fun forgone => held (forgone.mono (List.prefix_append _ _))
    refine ⟨info, issues, ?_⟩
    rw [Rests, exchanged.store, exchanged.state]
    exact rests

/-- After a harmless exchange no other token is to be forgotten. -/
theorem Forgone.of_harmless (h : Forgone c before e (after ++ [x]))
    (harmless : ¬ x.TriggersRecovery) : Forgone c before e after := by
  refine h.imp_right fun recovered => ⟨recovered.1, fun none => recovered.2 ?_⟩
  exact unrecovered_append.2 ⟨none, unrecovered_singleton.2 harmless⟩

/-- After a call has recovered it does not recover again. -/
theorem Forgone.of_recovered (h : Forgone c before e (after ++ [x]))
    (recovered : ¬ Unrecovered (before ++ e :: after)) : Forgone c before e after := by
  refine h.imp_right fun later => ⟨later.1, fun none => recovered ?_⟩
  rw [List.append_cons]
  exact unrecovered_append.2 ⟨later.1, none⟩

/-- An exchange that makes a call recover only if an access token is in use makes no difference where
none is kept. -/
theorem InHand.same (h : InHand c a q) (harmless : a.hasAccessToken = true → ¬ x.TriggersRecovery) :
    ∀ before e after, LastIssue q.sent before e after → Forgone c before e (after ++ [x]) →
      Forgone c before e after := by
  intro before e after last forgone
  by_contra held
  obtain ⟨info, source, access⟩ := h before e after last held
  refine held (forgone.of_harmless (harmless ?_))
  rw [Accessor.hasAccessToken_eq, access]
  rfl

theorem InHand.of_access {source : TokenSource} (access : a.token = .access info source) :
    InHand c a p := fun _ _ _ _ _ => ⟨info, source, access⟩

/-- If no access token is in use, none is kept. -/
theorem InHand.lost (h : InHand c a p) (unused : ∀ info source, a.token ≠ .access info source) :
    Lost c p := by
  intro before e after last
  by_contra held
  obtain ⟨info, source, access⟩ := h before e after last held
  exact unused info source access

theorem Lost.still (h : Lost c q) (still : Still q p) : Lost c p := by
  rw [Lost, still.sent]
  exact h

theorem Lost.exchanged (h : Lost c q) (exchanged : Exchanged c s a purpose q x p)
    (silent : x.issued? = none) : Lost c p := by
  intro before e after last
  rw [exchanged.sent] at last
  obtain ⟨init, rfl, earlier⟩ := last.of_silent silent
  exact (h before e init earlier).mono (List.prefix_append _ _)

theorem Spent.still (h : Spent q) (still : Still q p) : Spent p := by
  rw [Spent, still.sent, still.state]
  exact h

/-- An exchange for another purpose trades no request token. -/
theorem Spent.exchanged (h : Spent q) (exchanged : Exchanged c s a purpose q x p)
    (other : purpose ≠ .accessToken) : Spent p := by
  rintro ⟨y, mem, trade⟩
  rw [exchanged.state]
  rw [exchanged.sent, List.mem_append, List.mem_singleton] at mem
  rcases mem with earlier | rfl
  · exact h ⟨y, earlier, trade⟩
  · exact absurd (exchanged.purpose.symm.trans trade) other

theorem Banked.afterForgetting (h : Banked c s p) (a : Accessor) :
    Banked c s (afterForgetting a p) where
  gone before e after last forgone := by
    obtain ⟨⟨missing, cleared⟩, discards⟩ := h.gone before e after last forgone
    exact ⟨⟨missing, congrArg ClientState.clearRequestToken cleared⟩, discards⟩
  kept before e after last held := by
    obtain ⟨info, issues, rests⟩ := h.kept before e after last held
    refine ⟨info, issues, ?_⟩
    rw [Rests] at rests ⊢
    cases persistence : c.policy.persistence with
    | server =>
      rw [persistence] at rests
      exact ⟨rests.1, congrArg ClientState.clearRequestToken rests.2⟩
    | client =>
      rw [persistence] at rests
      exact rests

theorem Kept.rests {source : TokenSource} (kept : Kept c info q source p) : Rests c info p := by
  rw [Rests]
  cases kept with
  | inStore server set =>
    rw [server]
    exact ⟨stored?_setToken set, rfl⟩
  | inState client =>
    rw [client]
    exact ClientState.accessInfo?_setAccessToken _ _

/-- What was kept can be kept. -/
theorem Kept.keepable {source : TokenSource} (kept : Kept c info q source p) :
    ¬ (c.policy.persistence = .server ∧ c.token.viewer = none) := by
  rintro ⟨server, stranger⟩
  cases kept with
  | inStore _ set =>
    obtain ⟨key, own, -⟩ := Store.setToken_eq_ok set
    rw [TokenKey.of, stranger] at own
    cases own
  | inState client => cases client.symm.trans server

theorem Issues.issued (h : Issues c s before e info) : e.issued? ≠ none := by
  cases h with
  | traded _ read | extended _ read => simp [issued_of_tokenInfo? read]

/-- A token that was issued and kept is where tokens are kept. -/
theorem Banked.issued {source : TokenSource} (issues : Issues c s q.sent x info)
    (sent : p.sent = q.sent ++ [x]) (kept : Kept c info p source p') : Banked c s p' := by
  have only {before after : List Exchange} {e : Exchange} (last : LastIssue p'.sent before e after) :
      before = q.sent ∧ e = x ∧ after = [] := by
    rw [kept.sent, sent] at last
    exact last.of_issued issues.issued
  constructor
  · intro before e after last forgone
    obtain ⟨rfl, rfl, rfl⟩ := only last
    rcases forgone with stranger | ⟨-, recovered⟩
    · exact absurd stranger kept.keepable
    · exact absurd unrecovered_nil recovered
  · intro before e after last _
    obtain ⟨rfl, rfl, -⟩ := only last
    exact ⟨info, issues, kept.rests⟩

theorem Lost.discarded (h : Lost c q) (discarded : Discarded c q p) : Lost c p := by
  rw [Lost, discarded.sent]
  exact h

/-- Where its token was to be forgotten, a call has discarded it. -/
theorem Lost.banked {rejected : Bool} (h : Lost c q) (reached : Reaches c s (.forgetting rejected a) q)
    (discarded : Discarded c q p) : Banked c s p where
  gone _ _ after last _ :=
    ⟨discarded.gone, rejected, a, q, after, reached, discarded.sent.symm.trans last.split,
      List.prefix_rfl⟩
  kept before e after last held := absurd (h.discarded discarded before e after last) held

theorem Lost.inHand (h : Lost c p) : InHand c a p :=
  fun before e after last held => absurd (h before e after last) held

/-- What holds at each stage: a token that was issued is kept, and used as long as it is, or it is to
be forgotten. -/
def BankedAt (c : Call) (s : Surroundings) : Stage → Progress → Prop
  | .attempting _, p => Banked c s p ∧ Spent p
  | .built _ a, p | .choosing _ a, p | .delivering _ a, p =>
    (Banked c s p ∧ Spent p) ∧ InHand c a p
  | .extending _ _ _, p | .forgetting _ _, p => Lost c p ∧ Spent p
  | .ended outcome, p => (∀ f, outcome ≠ .error (.failed f)) → Banked c s p ∧
    ∀ before e after, LastIssue p.sent before e after → ¬ Forgone c before e after → Spent p

theorem BankedAt.ended {outcome : Except Stop (Option Response)} (banked : Banked c s p)
    (spent : Spent p) : BankedAt c s (.ended outcome) p :=
  fun _ => ⟨banked, fun _ _ _ _ _ => spent⟩

theorem BankedAt.mended (h : (Banked c s p ∧ Spent p) ∧ InHand c a p) (rejected : Bool) :
    BankedAt c s (.mended rejected a) p := by
  cases rejected with
  | true => exact h.1
  | false => exact h

/-- An accessor that is built binds the token that is kept. -/
theorem Banked.inHand (h : Banked c s p) (renewed : Renewed c s p)
    (built : Accessor.build p.store (c.arguments p) c.token c.services p.state = .ok a) :
    InHand c a p := by
  intro before e after last held
  obtain ⟨kind, wanted, unnamed⟩ := renewed.wanted last.latestIssued
  obtain ⟨provider, -, -, -, -, chosen⟩ :=
    Accessor.build_delegated ((c.arguments_kind p).trans kind) built
  obtain ⟨service, tokenName, -⟩ := c.arguments_eq p
  obtain ⟨info, -, rests⟩ := h.kept before e after last held
  rcases chosen.of_unnamed (c.arguments_tokenUse p ▸ wanted) unnamed with
    ⟨found, bound, -⟩ | ⟨bound, missing⟩
  · exact ⟨found, .store, bound⟩
  · rw [service, tokenName] at missing
    rw [Rests] at rests
    cases persistence : c.policy.persistence with
    | server =>
      rw [persistence] at rests
      exact absurd (stored?_eq_some_iff.1 rests.1) (missing info)
    | client =>
      rw [persistence] at rests
      rw [Accessor.carriedToken, rests] at bound
      exact ⟨info, .clientState, bound⟩

/-- What holds when a session was extended, or was not. -/
def BankedAfterExtension (c : Call) (s : Surroundings) : Except Stop Accessor → Progress → Prop
  | .ok b, p => (Banked c s p ∧ Spent p) ∧ InHand c b p
  | .error stop, p => (∀ f, stop ≠ .failed f) → Lost c p ∧ Spent p

theorem Lost.extended {handle : String} {outcome : Except Stop Accessor} (h : Lost c q)
    (spent : Spent q) (time : q.clock = c.clockAfter s q.sent.length)
    (coherent : a.Coherent) (held : a.sessionHandle? = some handle)
    (extended : Extended c s a handle q outcome p) : BankedAfterExtension c s outcome p := by
  cases extended with
  | unanswered unanswered =>
    intro refused
    have still := unanswered.still refused
    exact ⟨h.still still, spent.still still⟩
  | refused exchanged refuses =>
    exact fun _ => ⟨h.exchanged exchanged refuses.silent, spent.exchanged exchanged (by decide)⟩
  | unkept exchanged _ server stranger =>
    exact fun _ => ⟨fun _ _ _ _ => .inl ⟨server, stranger⟩, spent.exchanged exchanged (by decide)⟩
  | @extended x info source p p' exchanged issued kept =>
    have spent : Spent p := spent.exchanged exchanged (by decide)
    refine ⟨⟨.issued (exchanged.issues_extended time coherent held issued) exchanged.sent kept, ?_⟩,
      .of_access rfl⟩
    rw [Spent, kept.sent, kept.requestToken]
    exact spent

/-- What holds when a request token was traded, or was not. -/
def BankedAfterTrade (c : Call) (s : Surroundings) : Except Stop Accessor → Progress → Prop
  | .ok b, p => (Banked c s p ∧ Spent p) ∧ InHand c b p
  | .error stop, p => (∀ f, stop ≠ .failed f) → Banked c s p

theorem Banked.traded {outcome : Except Stop Accessor} (h : Banked c s q) (inHand : InHand c a q)
    (time : q.clock = c.clockAfter s q.sent.length) (unsettled : ¬ a.token.IsSettled)
    (traded : Traded c s a q outcome p) : BankedAfterTrade c s outcome p := by
  cases traded with
  | foreign => exact fun _ => h
  | unanswered unanswered => exact fun refused => h.alike (unanswered.still refused).alike
  | refused exchanged refuses =>
    have unused (used : a.hasAccessToken = true) : False := by
      apply unsettled
      intro token secret source request
      rw [Accessor.hasAccessToken_eq, request] at used
      cases used
    exact fun _ => h.exchanged exchanged refuses.silent (inHand.same fun used => (unused used).elim)
  | @traded x info source p p' exchanged issued kept =>
    have sent : (Call.afterForgetting a p).sent = q.sent ++ [x] := exchanged.sent
    refine ⟨⟨.issued (exchanged.issues_traded time issued) sent kept, fun _ => ?_⟩, .of_access rfl⟩
    exact kept.requestToken

/-- Approval is asked for where no token is kept. -/
theorem Banked.approved {outcome : Except Stop Unit} (h : Banked c s q) (spent : Spent q)
    (inHand : InHand c a q) (unbound : a.token = .none) (approved : Approved c s a q outcome p) :
    BankedAt c s (.ended (outcome.map fun _ => none)) p := by
  have silent {x : Exchange} {p : Progress} (exchanged : Exchanged c s a .requestToken q x p) :
      x.issued? = none := Exchange.issued?_of_purpose (by simp [exchanged.purpose])
  have banked {x : Exchange} {p : Progress} (exchanged : Exchanged c s a .requestToken q x p) :
      Banked c s p := by
    refine h.exchanged exchanged (silent exchanged) (inHand.same fun used => ?_)
    rw [Accessor.hasAccessToken_eq, unbound] at used
    cases used
  cases approved with
  | foreign => exact .ended h spent
  | unanswered unanswered =>
    intro refused
    have still := unanswered.still fun f failed => refused f (by rw [failed]; rfl)
    exact ⟨h.alike still.alike, fun _ _ _ _ _ => spent.still still⟩
  | refused exchanged => exact .ended (banked exchanged) (spent.exchanged exchanged (by decide))
  | @approved x token secret url p exchanged =>
    have lost : Lost c p := (inHand.lost (by simp [unbound])).exchanged exchanged (silent exchanged)
    refine fun _ => ⟨⟨fun before e after last forgone => ?_, fun before e after last held => ?_⟩,
      fun before e after last held => ?_⟩
    · obtain ⟨⟨missing, -⟩, discards⟩ := (banked exchanged).gone before e after last forgone
      exact ⟨⟨missing, rfl⟩, discards⟩
    · exact absurd (lost before e after last) held
    · exact absurd (lost before e after last) held

/-- What was got for the resource ends the call, unless it makes the call recover. -/
theorem Banked.fetched {response : Response} {outcome : Except Stop (Option Response)}
    (h : Banked c s q) (spent : Spent q) (fetched : Fetched c s a q (.ok response) p)
    (same : ∀ x, Exchanged c s a .resource q x p → x.response = some response →
      ∀ before e after, LastIssue q.sent before e after → Forgone c before e (after ++ [x]) →
        Forgone c before e after) : BankedAt c s (.ended outcome) p := by
  cases fetched with
  | cached still => exact .ended (h.alike still.alike) (spent.still still)
  | @answered x _ _ exchanged answered =>
    have silent : x.issued? = none := Exchange.issued?_of_purpose (by simp [exchanged.purpose])
    exact .ended (h.exchanged exchanged silent (same x exchanged answered))
      (spent.exchanged exchanged (by decide))

/-- A token that was rejected for the resource is to be forgotten. -/
theorem Lost.rejected (exchanged : Exchanged c s a .resource q x p) (triggers : x.TriggersRecovery)
    (unrecovered : Unrecovered q.sent) : Lost c p := by
  intro before e after last
  rw [exchanged.sent] at last
  obtain ⟨init, rfl, earlier⟩ :=
    last.of_silent (Exchange.issued?_of_purpose (by simp [exchanged.purpose]))
  rw [earlier.split, List.append_cons] at unrecovered
  refine .inr ⟨(unrecovered_append.1 unrecovered).1, fun none => ?_⟩
  exact unrecovered_singleton.1 (unrecovered_append.1 none).2 triggers

theorem BankedAt.move (answers : OnlySuccesses s.cache) (reached : Reaches c s g q)
    (h : BankedAt c s g q) (move : c.Move g q g' p) : BankedAt c s g' p := by
  have sound := reached.sound
  have clean := reached.clean move
  have renewed := reached.renewed answers
  have recovered := reached.recovered answers
  have begun := reached.begun
  have time := reached.clock
  cases move with
  | build built => exact ⟨h, h.1.inHand renewed built⟩
  | unbuilt => exact .ended h.1 h.2
  | sign | keep | use => exact h
  | expire =>
    -- Nothing was sent yet, so no token that was issued is given up here.
    obtain rfl : p = c.begun s := begun
    exact ⟨fun _ _ _ last => absurd last not_lastIssue_nil, h.1.2⟩
  | extend ran =>
    exact .mended (h.1.extended h.2 time sound.2.2.coherent sound.1 (extended_of_run sound.2 sound.1 ran)) _
  | unextended ran =>
    exact h.1.extended h.2 time sound.2.2.coherent sound.1 (extended_of_run sound.2 sound.1 ran) (by simp)
  | unreached => exact fun refused => absurd rfl (refused _)
  | forget ran =>
    have discarded := discarded_of_run ran
    refine .mended ⟨⟨h.1.banked reached discarded, ?_⟩, (h.1.discarded discarded).inHand⟩ _
    rw [Spent, discarded.sent, discarded.requestToken]
    exact h.2
  | approve kind unbound _ ran =>
    exact h.1.1.approved h.1.2 h.2 unbound (approved_of_run sound kind unbound ran)
  | trade unsettled ran =>
    exact h.1.1.traded h.2 time unsettled (traded_of_run sound (sound.2.delegated unsettled) ran)
  | @startOver a q p stop unsettled ran failed =>
    have left : BankedAfterTrade c s (.error stop) p :=
      h.1.1.traded h.2 time unsettled (traded_of_run sound (sound.2.delegated unsettled) ran)
    refine ⟨(left fun f same => ?_).afterForgetting a, fun _ => rfl⟩
    rw [same] at failed
    cases failed
  | @untraded recovered a q p stop unsettled ran =>
    have left : BankedAfterTrade c s (.error stop) p :=
      h.1.1.traded h.2 time unsettled (traded_of_run sound (sound.2.delegated unsettled) ran)
    intro refused
    exact ⟨(left fun f same => refused f (by rw [same])).afterForgetting a, fun _ _ _ _ _ _ => rfl⟩
  | deliver ran good =>
    have fetched := fetched_of_run sound.2 clean sound.1 ran
    refine h.1.1.fetched h.1.2 fetched fun x exchanged answered => ?_
    refine h.2.same fun used => exchanged.not_triggersRecovery answered used fun failure failed => ?_
    cases good.symm.trans failed
  | undelivered ran failed final =>
    have fetched := fetched_of_run sound.2 clean sound.1 ran
    refine h.1.1.fetched h.1.2 fetched fun x exchanged answered => ?_
    rcases final with unrecoverable | rfl
    · refine h.2.same fun used => exchanged.not_triggersRecovery answered used fun failure same => ?_
      obtain rfl := Option.some.inj (failed.symm.trans same)
      exact unrecoverable
    · intro before e after last forgone
      refine forgone.of_recovered fun unrecovered => ?_
      rw [← last.split] at unrecovered
      cases recovered.1 unrecovered
  | outlive ran failed recoverable | reject ran failed recoverable =>
    have fetched := fetched_of_run sound.2 clean sound.1 ran
    obtain ⟨x, exchanged, -, triggers⟩ := fetched.recovered renewed.1.answers failed recoverable
    exact ⟨.rejected exchanged triggers (recovered.2 rfl), h.1.2.exchanged exchanged (by decide)⟩
  | unfetched ran =>
    have fetched := fetched_of_run sound.2 clean sound.1 ran
    cases fetched with
    | unanswered unanswered =>
      intro refused
      have still := unanswered.still fun f failed => refused f (by rw [failed])
      exact ⟨h.1.1.alike still.alike, fun _ _ _ _ _ => h.1.2.still still⟩

theorem banked_begun : Banked c s (c.begun s) where
  gone _ _ _ last := absurd last not_lastIssue_nil
  kept _ _ _ last := absurd last not_lastIssue_nil

theorem spent_begun : Spent (c.begun s) := by
  rintro ⟨x, mem, -⟩
  cases mem

theorem Reaches.banked (answers : OnlySuccesses s.cache) (h : Reaches c s g p) :
    BankedAt c s g p := by
  induction h with
  | unchecked => exact .ended banked_begun spent_begun
  | start => exact ⟨banked_begun, spent_begun⟩
  | move before move ih => exact ih.move answers before move

end Call

namespace Visit

open Call

variable {v : Visit} {response : Response} {before after : List Exchange} {e : Exchange}
  {info : TokenInfo}

end Visit
end DelegatedFetch
