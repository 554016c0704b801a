import DelegatedFetch.Proofs.Fetch.Latest
import DelegatedFetch.Proofs.Fetch.Visitors

/-!
# Gates

Two gates stand before requests. A call that needs a token asks for its resource
with an access token only; and approval, from its request to its completion, is
the owner's. So whatever a visitor's call comes to, the access tokens that it
leaves are those that it has found, or that extended a session.

The gates hold for each request by itself, whichever attempt it belongs to, and
also where a token was given up in between.
-/

namespace DelegatedFetch

namespace Call

variable {c : Call} {s : Surroundings} {a : Accessor} {p q : Progress} {purpose : Purpose}
  {g g' : Stage} {sent : List Exchange} {b : BoundToken}

/-- What has to hold of a call, and of the token it binds, for a request to be made. -/
def Permits (c : Call) (purpose : Purpose) (b : BoundToken) : Prop :=
  match purpose with
  | .requestToken | .accessToken => c.token.viewerIsOwner = true
  | .extension => b.IsAccess
  | .resource => c.args.kind = .delegated → c.args.tokenUse = .always → b.IsAccess

/-- Each exchange was permitted, by what it was signed with. -/
def AllPermitted (c : Call) (s : Surroundings) (sent : List Exchange) : Prop :=
  ∀ before e after, sent = before ++ e :: after →
    ∃ g : Signing, g.Of c s before e.purpose e.request ∧ c.Permits e.purpose g.bound

theorem AllPermitted.sends (h : AllPermitted c s q.sent) (permitted : c.Permits purpose a.token)
    (sends : Sends c s a purpose q p) : AllPermitted c s p.sent := by
  cases sends with
  | nothing same => exact same ▸ h
  | @one x g made bound signed last =>
    rw [last]
    exact forall_split_snoc h ⟨g, signed, made ▸ bound ▸ permitted⟩

theorem requestApproval_foreign (visitor : c.token.viewerIsOwner = false) (a : Accessor)
    (p : Progress) : c.requestApproval a p = (.error (.refused .approvalByOther), p) := by
  rw [requestApproval]
  simp only [visitor]
  rfl

/-- What holds at each stage: all that was sent was permitted, and so is the request for the
resource where that is next. -/
def PermittedAt (c : Call) (s : Surroundings) : Stage → Progress → Prop
  | .delivering _ a, p => AllPermitted c s p.sent ∧ c.Permits .resource a.token
  | _, p => AllPermitted c s p.sent

theorem PermittedAt.all (h : PermittedAt c s g p) : AllPermitted c s p.sent := by
  cases g with
  | delivering => exact h.1
  | _ => exact h

theorem PermittedAt.mended (h : AllPermitted c s p.sent) (rejected : Bool) :
    PermittedAt c s (.mended rejected a) p := by
  cases rejected with
  | true => exact h
  | false => exact h

/-- A trade is tried by the owner only, and brings an access token. -/
theorem AllPermitted.traded {outcome : Except Stop Accessor} (h : AllPermitted c s q.sent)
    (sound : Sound c s a q) (unsettled : ¬ a.token.IsSettled)
    (ran : c.exchangeRequestToken a q = (outcome, p)) :
    AllPermitted c s p.sent ∧ ∀ b, outcome = .ok b → b.token.IsAccess := by
  cases owner : c.token.viewerIsOwner with
  | false =>
    rw [exchangeRequestToken_foreign owner] at ran
    cases ran
    refine ⟨h, fun b traded => ?_⟩
    cases traded
  | true =>
    have permitted : c.Permits .accessToken a.token := owner
    have traded := traded_of_run sound (sound.2.delegated unsettled) ran
    refine ⟨h.sends permitted traded.sends, ?_⟩
    rintro b rfl
    cases traded with
    | traded => exact ⟨_, _, rfl⟩

theorem AllPermitted.approved {outcome : Except Stop Unit} (h : AllPermitted c s q.sent)
    (sound : Sound c s a q) (kind : c.args.kind = .delegated) (unbound : a.token = .none)
    (ran : c.requestApproval a q = (outcome, p)) : AllPermitted c s p.sent := by
  cases owner : c.token.viewerIsOwner with
  | false =>
    rw [requestApproval_foreign owner] at ran
    cases ran
    exact h
  | true =>
    have permitted : c.Permits .requestToken a.token := owner
    exact h.sends permitted (approved_of_run sound kind unbound ran).sends

/-- Only a session is extended, and that belongs to an access token. -/
theorem AllPermitted.extended {handle : String} {outcome : Except Stop Accessor}
    (h : AllPermitted c s q.sent) (coherent : a.Coherent) (held : a.sessionHandle? = some handle)
    (extended : Extended c s a handle q outcome p) : AllPermitted c s p.sent := by
  obtain ⟨info, source, bound, -⟩ := coherent.access held
  have permitted : c.Permits .extension a.token := ⟨info, source, bound⟩
  exact h.sends permitted extended.sends

theorem PermittedAt.move (reached : Reaches c s g q) (h : PermittedAt c s g q)
    (move : c.Move g q g' p) : PermittedAt c s g' p := by
  have sound := reached.sound
  have clean := reached.clean move
  have all := h.all
  cases move with
  | build | unbuilt | keep | expire => exact all
  | sign kind =>
    refine ⟨all, fun delegated => ?_⟩
    cases kind.symm.trans delegated
  | use settled enough =>
    -- A delegated call may go on here without an access token, but only if none is needed.
    exact ⟨all, fun _ always => settled.isAccess fun unbound => enough unbound always⟩
  | extend ran => exact .mended (all.extended sound.2.2.coherent sound.1 (extended_of_run sound.2 sound.1 ran)) _
  | unextended ran | unreached ran =>
    exact all.extended sound.2.2.coherent sound.1 (extended_of_run sound.2 sound.1 ran)
  | forget ran =>
    refine .mended ?_ _
    rw [(discarded_of_run ran).sent]
    exact all
  | approve kind unbound _ ran => exact all.approved sound kind unbound ran
  | trade unsettled ran =>
    obtain ⟨all, bound⟩ := all.traded sound unsettled ran
    exact ⟨all, fun _ _ => bound _ rfl⟩
  | startOver unsettled ran | untraded unsettled ran => exact (all.traded sound unsettled ran).1
  | deliver ran | undelivered ran | outlive ran | reject ran | unfetched ran =>
    exact all.sends h.2 (fetched_of_run sound.2 clean sound.1 ran).sends

theorem Reaches.permitted (h : Reaches c s g p) : PermittedAt c s g p := by
  have nothing : AllPermitted c s [] := by
    intro before e after split
    simp at split
  induction h with
  | unchecked | start => exact nothing
  | move before move ih => exact ih.move before move

theorem permitted_fetch (c : Call) (s : Surroundings) : AllPermitted c s (c.fetch s).2.sent :=
  fetch_of_reaches (I := fun p => AllPermitted c s p.sent) (fun _ _ h => h)
    fun _ _ reached => reached.permitted

/-- A request was signed with an access token, and carries it. -/
def SignedWithAccess (c : Call) (s : Surroundings) (before : List Exchange) (e : Exchange) : Prop :=
  ∃ (g : Signing) (info : TokenInfo) (source : TokenSource), g.Of c s before e.purpose e.request ∧
    g.bound = .access info source ∧ c.Carries e info.token

/-- A session was extended to an access token. -/
def ExtendedTo (sent : List Exchange) (info : TokenInfo) : Prop :=
  ∃ x ∈ sent, x.purpose = .extension ∧ x.Grants info.token info.secret

theorem signedWithAccess {g : Signing} {before : List Exchange} {e : Exchange}
    (signed : g.Of c s before e.purpose e.request) (access : g.bound.IsAccess) :
    c.SignedWithAccess s before e := by
  obtain ⟨info, source, bound⟩ := access
  exact ⟨g, info, source, signed, bound, signed.carries (by rw [bound]; rfl)⟩

/-- A visitor's call asks for the resource, and extends sessions. -/
theorem visitor_sends (visitor : c.token.viewerIsOwner = false) {before after : List Exchange}
    {e : Exchange} (sent : (c.fetch s).2.sent = before ++ e :: after) :
    e.purpose = .resource ∨ e.purpose = .extension ∧ c.SignedWithAccess s before e := by
  obtain ⟨g, signed, permitted⟩ := c.permitted_fetch s before e after sent
  cases made : e.purpose with
  | resource => exact .inl rfl
  | extension =>
    rw [made] at permitted
    exact .inr ⟨rfl, signedWithAccess signed permitted⟩
  | requestToken | accessToken =>
    rw [made] at permitted
    cases permitted.symm.trans visitor

/-- What a visitor was granted was granted to extend a session. -/
theorem extendedTo_of_granted (visitor : c.token.viewerIsOwner = false) {x : Exchange}
    {info : TokenInfo} (mem : x ∈ (c.fetch s).2.sent)
    (forAccess : x.purpose = .accessToken ∨ x.purpose = .extension)
    (grants : x.Grants info.token info.secret) : ExtendedTo (c.fetch s).2.sent info := by
  obtain ⟨before, after, sent⟩ := List.append_of_mem mem
  refine ⟨x, mem, ?_, grants⟩
  rcases visitor_sends visitor sent with resource | ⟨extension, -⟩
  · rw [resource] at forAccess
    rcases forAccess with other | other <;> cases other
  · exact extension

/-- Nothing that a visitor's call leaves in the store or in the state comes from an approval. -/
theorem visitor_leaves (visitor : c.token.viewerIsOwner = false) :
    (∀ key info, (c.fetch s).2.store.tokens.find? key = some info →
      s.store.tokens.find? key = some info ∨ ExtendedTo (c.fetch s).2.sent info) ∧
    (∀ info, (c.fetch s).2.state.accessInfo? = some info →
      (c.incomingState s.clock.millis).accessInfo? = some info ∨
        ExtendedTo (c.fetch s).2.sent info) ∧
    ∀ token, (c.fetch s).2.state.requestToken = some token →
      (c.incomingState s.clock.millis).requestToken = some token := by
  have traced := c.invariant_fetch s
  refine ⟨fun key info held => ?_, fun info held => ?_, fun token held => ?_⟩
  · by_cases own : TokenKey.of c.token c.args.service c.args.tokenName = .ok key
    · have found := stored?_of_key own (c.fetch s).2.store
      rw [held] at found
      cases traced.stored info (stored?_eq_some_iff.1 found) with
      | stored held' =>
        rw [← stored?_of_key own]
        exact .inl (stored?_eq_some_iff.2 held')
      | grantedAccess mem forAccess grants =>
        exact .inr (extendedTo_of_granted visitor mem forAccess grants)
    · rw [traced.others key own] at held
      exact .inl held
  · cases traced.carriedAccess info held with
    | carriedAccess held' => exact .inl held'
    | grantedAccess mem forAccess grants =>
      exact .inr (extendedTo_of_granted visitor mem forAccess grants)
  · have known := traced.carriedRequest token held
    generalize ((c.fetch s).2.state.requestTokenSecret.getD "") = secret at known
    generalize same : BoundToken.request token secret .clientState = b at known
    cases known with
    | carriedRequest held' =>
      obtain ⟨rfl, -⟩ := BoundToken.request.inj same
      exact held'
    | grantedRequest mem made =>
      obtain ⟨before, after, sent⟩ := List.append_of_mem mem
      rcases visitor_sends visitor sent with other | ⟨other, -⟩ <;> cases made.symm.trans other
    | _ => cases same

/-- A call that needs a token asks for its resource with an access token, each time. A visitor's
call asks for the resource, and extends sessions with the access tokens that they belong to; so it
neither asks for a request token nor tries to trade one, and it leaves no token but what was there
and what a session was extended to. -/
theorem fetch_gated (c : Call) (s : Surroundings) :
    (c.args.kind = .delegated → c.args.tokenUse = .always → ∀ before e after,
      (c.fetch s).2.sent = before ++ e :: after → e.purpose = .resource →
        c.SignedWithAccess s before e) ∧
    (c.token.viewerIsOwner = false →
      (∀ before e after, (c.fetch s).2.sent = before ++ e :: after →
        e.purpose = .resource ∨ e.purpose = .extension ∧ c.SignedWithAccess s before e) ∧
      (∀ key info, (c.fetch s).2.store.tokens.find? key = some info →
        s.store.tokens.find? key = some info ∨ ExtendedTo (c.fetch s).2.sent info) ∧
      (∀ info, (c.fetch s).2.state.accessInfo? = some info →
        (c.incomingState s.clock.millis).accessInfo? = some info ∨
          ExtendedTo (c.fetch s).2.sent info) ∧
      ∀ token, (c.fetch s).2.state.requestToken = some token →
        (c.incomingState s.clock.millis).requestToken = some token) := by
  refine ⟨fun kind always before e after sent resource => ?_, fun visitor =>
    ⟨fun _ _ _ sent => visitor_sends visitor sent, visitor_leaves visitor⟩⟩
  obtain ⟨g, signed, permitted⟩ := c.permitted_fetch s before e after sent
  rw [resource] at permitted
  exact signedWithAccess signed (permitted kind always)

/-- A call of ann's on zoe's page. It needs a token, and finds one that has expired. -/
def guestCall : Call :=
  let call := extendingCall .server
  { call with token := { call.token with owner := some "zoe" } }

/-- Ann asks for the resource twice, each time with an access token; in between her session is
extended, and what she has then in the store comes from that. -/
theorem fetch_gated_guest : ∃ x y e, (guestCall.fetch sessionStart).2.sent = [x, y, e] ∧
    guestCall.SignedWithAccess sessionStart [] x ∧
    y.purpose = .extension ∧ guestCall.SignedWithAccess sessionStart [x] y ∧
    guestCall.SignedWithAccess sessionStart [x, y] e ∧
    ExtendedTo [x, y, e] ⟨"fresh", "hidden", some "handle", none⟩ := by
  have told : (guestCall.fetch sessionStart).2.sent.map (·.purpose) =
      [.resource, .extension, .resource] := by decide +kernel
  have stored : (guestCall.fetch sessionStart).2.store.tokens.find?
      ⟨"gadget", "photos", "ann", 0, ""⟩ = some ⟨"fresh", "hidden", some "handle", none⟩ := by
    decide +kernel
  have unfound : sessionStart.store.tokens.find? ⟨"gadget", "photos", "ann", 0, ""⟩ ≠
      some ⟨"fresh", "hidden", some "handle", none⟩ := by decide
  obtain ⟨x, y, e, sent, first, second, third⟩ := eq_triple_of_map told
  obtain ⟨needs, visits⟩ := fetch_gated guestCall sessionStart
  have resource := needs rfl rfl
  obtain ⟨sends, leaves, -⟩ := visits rfl
  rw [sent] at resource sends leaves
  refine ⟨x, y, e, sent, resource [] x [y, e] rfl first, second, ?_,
    resource [x, y] e [] rfl third, ?_⟩
  · rcases sends [x] y [e] rfl with other | ⟨-, signed⟩
    · cases second.symm.trans other
    · exact signed
  · exact (leaves _ _ stored).resolve_left unfound

end Call
end DelegatedFetch
