import DelegatedFetch.Proofs.Fetch.Recovery
import DelegatedFetch.Proofs.Fetch.Session

/-!
# Whose tokens a state offers

The store keeps a token for one gadget, service, viewer, module and name. The
state that a caller brings is bound to a viewer only. So a call of the same
viewer for another gadget or another service takes a token out of it that was
granted elsewhere, and sends it to its own provider; unless it has a token of
its own, and until that one is rejected.
-/

namespace DelegatedFetch

/-- A state has a token to offer. -/
def ClientState.Offers (state : ClientState) (token : String) : Prop :=
  state.requestToken = some token ∨ ∃ info, state.accessInfo? = some info ∧ info.token = token

/-- Whoever a state belongs to, it offers the same tokens. -/
theorem ClientState.offers_owner {state : ClientState} {owner : Option String} {token : String} :
    ({ state with owner } : ClientState).Offers token ↔ state.Offers token := Iff.rfl

namespace Call

variable {c : Call} {s : Surroundings} {a : Accessor} {p p' q : Progress} {e x : Exchange}
  {purpose : Purpose} {g g' : Stage} {before after sent : List Exchange} {token : String}
  {b : BoundToken}

/-- A token of the call's own: named among its arguments or in the declared URL of an endpoint, stored
under its key when it begins, or granted to it so far. -/
inductive Own (c : Call) (s : Surroundings) (sent : List Exchange) (token : String) : Prop
  | named (named : c.args.requestToken = some token)
  | declared {provider : Provider} (declared : c.services.provider c.args.service = .ok provider)
      (mem : token ∈ tokensIn provider.request.bare.ownPairs ∨
        token ∈ tokensIn provider.access.bare.ownPairs)
  | stored {info : TokenInfo} (held : c.stored? s.store = some info) (same : info.token = token)
  | granted {x : Exchange} {secret : String} (mem : x ∈ sent) (grants : x.Grants token secret)

/-- A call has a token of its own when it begins. -/
def HasOwn (c : Call) (s : Surroundings) : Prop :=
  c.args.requestToken ≠ none ∨ c.stored? s.store ≠ none

/-- A call that has a token of its own binds no other, until it recovers. -/
def OwnFirst (c : Call) (s : Surroundings) (sent : List Exchange) (b : BoundToken) : Prop :=
  c.HasOwn s → Unrecovered sent → ∀ token, b.token? = some token → Own c s sent token

/-- Each exchange was signed with an own token, if the call had one and had not recovered; and with a
token only if one is wanted. -/
def AllOwnFirst (c : Call) (s : Surroundings) (sent : List Exchange) : Prop :=
  ∀ before e after, sent = before ++ e :: after →
    ∃ g : Signing, g.Of c s before e.purpose e.request ∧
      (g.bound ≠ .none → c.args.kind = .delegated ∧ c.args.tokenUse ≠ .never) ∧
      OwnFirst c s before g.bound

theorem Own.snoc (h : Own c s sent token) : Own c s (sent ++ [x]) token := by
  cases h with
  | named named => exact .named named
  | declared declared mem => exact .declared declared mem
  | stored held same => exact .stored held same
  | granted mem grants => exact .granted (List.mem_append_left _ mem) grants

theorem OwnFirst.snoc (h : OwnFirst c s sent b) : OwnFirst c s (sent ++ [x]) b :=
  fun own unrecovered token bound => (h own (unrecovered_append.1 unrecovered).1 token bound).snoc

theorem OwnFirst.none : OwnFirst c s sent .none := by
  intro _ _ _ bound
  cases bound

theorem OwnFirst.issued {info : TokenInfo} {source : TokenSource}
    (issued : x.issued? = some info.token) : OwnFirst c s (sent ++ [x]) (.access info source) := by
  intro _ _ token bound
  obtain rfl := Option.some.inj bound
  obtain ⟨secret, grants⟩ := Exchange.grants_of_issued issued
  exact .granted (List.mem_append_right _ List.mem_cons_self) grants

theorem OwnFirst.recovered (recovered : ¬ Unrecovered sent) : OwnFirst c s sent b :=
  fun _ unrecovered => absurd unrecovered recovered

theorem AllOwnFirst.sends (h : AllOwnFirst c s q.sent) (own : OwnFirst c s q.sent a.token)
    (ready : Ready c s a q) (sends : Sends c s a purpose q p) : AllOwnFirst c s p.sent := by
  cases sends with
  | nothing same => exact same ▸ h
  | @one x g made bound signed last =>
    rw [last]
    exact forall_split_snoc h ⟨g, signed, bound ▸ ready.wanted, bound ▸ own⟩

/-- What holds when an access token was asked for. -/
def OwnAfter (c : Call) (s : Surroundings) : Except Stop Accessor → Progress → Prop
  | .ok b, p => AllOwnFirst c s p.sent ∧ OwnFirst c s p.sent b.token
  | .error _, p => AllOwnFirst c s p.sent

theorem AllOwnFirst.extended {handle : String} {outcome : Except Stop Accessor}
    (h : AllOwnFirst c s q.sent) (own : OwnFirst c s q.sent a.token) (ready : Ready c s a q)
    (extended : Extended c s a handle q outcome p) : OwnAfter c s outcome p := by
  have all := h.sends own ready extended.sends
  cases extended with
  | unanswered | refused | unkept => exact all
  | @extended x info source p p' exchanged issued kept =>
    have told : x.issued? = some info.token := issued_of_tokenInfo? issued
    have same : x.issued? = some (info.keepingHandle handle).token := told
    refine ⟨all, ?_⟩
    rw [kept.sent, exchanged.sent]
    exact .issued same

theorem AllOwnFirst.traded {outcome : Except Stop Accessor}
    (h : AllOwnFirst c s q.sent) (own : OwnFirst c s q.sent a.token) (ready : Ready c s a q)
    (traded : Traded c s a q outcome p) : OwnAfter c s outcome p := by
  have all := h.sends own ready traded.sends
  cases traded with
  | foreign | unanswered | refused => exact all
  | @traded x info source p p' exchanged issued kept =>
    refine ⟨all, ?_⟩
    rw [kept.sent, Call.afterForgetting, exchanged.sent]
    exact .issued (issued_of_tokenInfo? issued)

theorem AllOwnFirst.fetched {outcome : Except Stop Response}
    (h : AllOwnFirst c s q.sent) (own : OwnFirst c s q.sent a.token) (ready : Ready c s a q)
    (fetched : Fetched c s a q outcome p) :
    AllOwnFirst c s p.sent ∧ OwnFirst c s p.sent a.token := by
  refine ⟨h.sends own ready fetched.sends, ?_⟩
  cases fetched.sends with
  | nothing same => exact same ▸ own
  | one _ _ _ last => exact last ▸ own.snoc

/-- The first accessor of a call has an own token, if there is one. -/
theorem ownFirst_of_build
    (built : Accessor.build s.store c.args c.token c.services (c.incomingState s.clock.millis) =
      .ok a) : OwnFirst c s [] a.token := by
  intro own _ token bound
  cases kind : c.args.kind with
  | signed =>
    obtain ⟨-, unbound, -⟩ := Accessor.build_signed kind built
    rw [unbound] at bound
    cases bound
  | delegated =>
    obtain ⟨provider, -, -, -, -, chosen⟩ := Accessor.build_delegated kind built
    generalize a.token = b at bound chosen
    cases chosen with
    | unwanted => cases bound
    | argument _ named => exact .named (named.trans bound)
    | stored _ _ held => exact .stored (stored?_eq_some_iff.2 held) (Option.some.inj bound)
    | carried _ unnamed missing =>
      rcases own with named | stored
      · exact absurd unnamed named
      · obtain ⟨info, held⟩ := Option.ne_none_iff_exists'.1 stored
        exact absurd (stored?_eq_some_iff.1 held) (missing info)

/-- What holds at each stage: own tokens come first. -/
def OwnFirstAt (c : Call) (s : Surroundings) : Stage → Progress → Prop
  | .attempting _, p | .forgetting _ _, p | .ended _, p => AllOwnFirst c s p.sent
  | .built _ a, p | .choosing _ a, p | .delivering _ a, p | .extending _ a _, p =>
    AllOwnFirst c s p.sent ∧ OwnFirst c s p.sent a.token

theorem OwnFirstAt.mended (h : AllOwnFirst c s p.sent ∧ OwnFirst c s p.sent a.token)
    (rejected : Bool) : OwnFirstAt c s (.mended rejected a) p := by
  cases rejected with
  | true => exact h.1
  | false => exact h

theorem OwnFirstAt.move (answers : OnlySuccesses s.cache) (reached : Reaches c s g q)
    (h : OwnFirstAt c s g q) (move : c.Move g q g' p) : OwnFirstAt c s g' p := by
  have sound := reached.sound
  have clean := reached.clean move
  have renewed := reached.renewed answers
  have recovered := reached.recovered answers
  have begun := reached.begun
  cases move with
  | @build recovered' _ a built =>
    refine ⟨h, ?_⟩
    cases recovered' with
    | true => exact .recovered fun unrecovered => by cases recovered.1 unrecovered
    | false =>
      obtain rfl : p = c.begun s := begun
      exact ownFirst_of_build built
  | unbuilt | sign | keep | expire | use => exact h
  | extend ran =>
    exact .mended (h.1.extended h.2 renewed.2 (extended_of_run sound.2 sound.1 ran)) _
  | unextended ran | unreached ran =>
    exact h.1.extended h.2 renewed.2 (extended_of_run sound.2 sound.1 ran)
  | forget ran =>
    refine .mended ⟨?_, .none⟩ _
    rw [(discarded_of_run ran).sent]
    exact h
  | approve kind unbound _ ran =>
    exact h.1.sends h.2 renewed.2 (approved_of_run sound kind unbound ran).sends
  | trade unsettled ran =>
    exact h.1.traded h.2 renewed.2 (traded_of_run sound (sound.2.delegated unsettled) ran)
  | startOver unsettled ran | untraded unsettled ran =>
    exact h.1.traded h.2 renewed.2 (traded_of_run sound (sound.2.delegated unsettled) ran)
  | deliver ran | undelivered ran | reject ran | unfetched ran =>
    exact (h.1.fetched h.2 renewed.2 (fetched_of_run sound.2 clean sound.1 ran)).1
  | outlive ran => exact h.1.fetched h.2 renewed.2 (fetched_of_run sound.2 clean sound.1 ran)

theorem Reaches.ownFirst (answers : OnlySuccesses s.cache) (h : Reaches c s g p) :
    OwnFirstAt c s g p := by
  have nothing : AllOwnFirst c s [] := by
    intro before e after split
    simp at split
  induction h with
  | unchecked | start => exact nothing
  | move before move ih => exact ih.move answers before move

theorem ownFirst_fetch (c : Call) {s : Surroundings} (answers : OnlySuccesses s.cache) :
    AllOwnFirst c s (c.fetch s).2.sent :=
  fetch_of_reaches (I := fun p => AllOwnFirst c s p.sent) (fun _ _ h => h)
    fun _ _ reached => reached.ownFirst answers

/-- A request carries a token of the call's own, or one that the state which the caller brings has to
offer; the latter only if the call wants a token, and had none of its own or has recovered. -/
theorem own_or_offered_fetch (answers : OnlySuccesses s.cache)
    (sent : (c.fetch s).2.sent = before ++ e :: after) (carries : c.Carries e token) :
    Own c s before token ∨
      (c.args.kind = .delegated ∧ c.args.tokenUse ≠ .never) ∧
        (¬ c.HasOwn s ∨ ¬ Unrecovered before) ∧
        (c.incomingState s.clock.millis).Offers token := by
  obtain ⟨g, h, wanted, first⟩ := c.ownFirst_fetch answers before e after sent
  rcases token_or_own_of_carries h carries with bound | bare
  · by_cases own : c.HasOwn s ∧ Unrecovered before
    · exact .inl (first own.1 own.2 token bound)
    rw [not_and_or] at own
    have wanted := wanted fun none => by rw [none] at bound; cases bound
    have known := h.known
    generalize g.bound = b at bound known
    cases known with
    | none => cases bound
    | argument named => exact .inl (.named (named.trans bound))
    | carriedRequest held => exact .inr ⟨wanted, own, .inl (held.trans bound)⟩
    | stored held => exact .inl (.stored (stored?_eq_some_iff.2 held) (Option.some.inj bound))
    | carriedAccess held => exact .inr ⟨wanted, own, .inr ⟨_, held, Option.some.inj bound⟩⟩
    | grantedRequest mem _ grants | grantedAccess mem _ grants =>
      obtain rfl := Option.some.inj bound
      exact .inl (.granted mem grants)
  · rcases bareRequest_eq_ok h.bare with ⟨resource, -⟩ | ⟨provider, declared, own | own⟩
    · rw [Request.tokensIn_ownPairs_of_clean (h.clean resource)] at bare
      cases bare
    · exact .inl (.declared declared (.inl (own ▸ bare)))
    · exact .inl (.declared declared (.inr (own ▸ bare)))

end Call

open Call

variable {policy : FetchPolicy} {visits later : List Visit} {v : Visit} {store : Store}

theorem Session.policy_eq (session : Session policy visits store) :
    ∀ u ∈ visits, u.call.policy = policy := by
  induction session with
  | start =>
    intro u mem
    exact absurd mem List.not_mem_nil
  | visit before common brought ih =>
    intro u mem
    rcases List.mem_append.1 mem with earlier | last
    · exact ih u earlier
    · rw [List.mem_singleton.1 last, common]

/-- What the state of a caller has to offer, was offered by the state that some call before of the same
viewer has told. -/
theorem offers_of_brought (commons : ∀ u ∈ visits, u.call.policy = policy)
    (common : v.call.policy = policy) (brought : Brought policy.crypter visits v.call.args.clientState)
    {now : UInt64} {token : String} (offers : (v.call.incomingState now).Offers token) :
    ∃ u ∈ visits, u.viewer = v.viewer ∧ u.toldState? ≠ none ∧
      v.call.args.clientState = u.toldState? ∧ u.final.state.Offers token := by
  rcases v.call.incomingState_cases now with blank | ⟨decoded, owner⟩
  · rw [blank] at offers
    rcases offers with named | ⟨info, held, -⟩
    · cases named
    · cases held
  rw [common] at decoded
  rw [decoded] at offers owner
  generalize v.call.args.clientState = state at brought offers owner
  have blank (same : ClientState.decode policy.crypter state policy.stateMaxAge now = .empty) :
      False := by
    rw [same] at offers
    rcases offers with named | ⟨info, held, -⟩
    · cases named
    · cases held
  cases brought with
  | nothing => exact (blank rfl).elim
  | foreign closed => exact (blank (ClientState.decode_of_openBlob_error closed _ _)).elim
  | @told u blob mem told =>
    rcases decode_toldState? (commons u mem) told policy.stateMaxAge now with none | same
    · exact (blank none).elim
    · rw [same] at offers owner
      exact ⟨u, mem, owner, by simp [told], told.symm, ClientState.offers_owner.1 offers⟩

/-- In a session, a request carries a token of its call's own, or one that the state which the caller
brings has to offer. Then the call wants a token, and had none of its own or has recovered; and the
state was told by a call of the same viewer before, for whatever it was. -/
theorem Session.own_or_offered {before after : List Exchange} {e : Exchange} {token : String}
    (session : Session policy (visits ++ v :: later) store) (answers : OnlySuccesses v.start.cache)
    (sent : v.final.sent = before ++ e :: after) (carries : v.call.Carries e token) :
    Own v.call v.start before token ∨
      (v.call.args.kind = .delegated ∧ v.call.args.tokenUse ≠ .never) ∧
        (¬ v.call.HasOwn v.start ∨ ¬ Unrecovered before) ∧
        ∃ u ∈ visits, u.viewer = v.viewer ∧ u.toldState? ≠ none ∧
          v.call.args.clientState = u.toldState? ∧ u.final.state.Offers token := by
  rcases own_or_offered_fetch answers sent carries with own | ⟨wanted, unowned, offers⟩
  · exact .inl own
  · obtain ⟨-, common, brought⟩ := session.at_visit
    have commons : ∀ u ∈ visits, u.call.policy = policy :=
      fun u mem => session.policy_eq u (List.mem_append_left _ mem)
    exact .inr ⟨wanted, unowned, offers_of_brought commons common brought offers⟩

/-- A token that was stored for the key of a call is its own. -/
theorem Session.own_or_offered_second : ∃ e, secondVisit.final.sent = [] ++ e :: [] ∧
    secondVisit.call.Carries e "granted" ∧ Own secondVisit.call secondVisit.start [] "granted" := by
  have stored : secondVisit.call.stored? secondVisit.start.store =
      some ⟨"granted", "hidden", none, none⟩ := by decide +kernel
  obtain ⟨e, sent, -, carries⟩ := carries_secondVisit
  refine ⟨e, sent, carries, ?_⟩
  rcases Session.own_or_offered session_of_visits onlySuccesses_none sent carries with
    own | ⟨-, unowned | recovered, -⟩
  · exact own
  · exact absurd (.inr (by simp [stored])) unowned
  · exact absurd unrecovered_nil recovered

/-- An endpoint of a service that keeps mail. -/
def mailEndpoint (path : String) : Endpoint :=
  ⟨⟨"https", "", "", some (.domain "mail.example"), none, path, none, none⟩, .get, .authHeader⟩

/-- The calls of a gadget that declares two services, where the caller's state keeps new tokens. -/
def gadgetCall (args : FetchArguments) (replies : Nat → Reply) : Call :=
  let call := photoCall replies
  { call with
    policy := { call.policy with persistence := .client }
    services := call.services.add (.current ⟨"mail", mailEndpoint "/request",
      mailEndpoint "/access", (mailEndpoint "/authorize").url⟩)
    args }

/-- A visit that trades an approved request token of one service. -/
def photosVisit : Visit where
  call := gadgetCall { FetchArguments.delegated "photos" with requestToken := some "approved" }
    fun n => if n = 0 then granted else found
  start := { photoStart with store := { photoStore with tokens := .empty } }

/-- A later visit of the same viewer for the other service, which brings the state that the first one
told. -/
def mailVisit : Visit where
  call := gadgetCall { FetchArguments.delegated "mail" with clientState := photosVisit.toldState? }
    fun _ => found
  start := { photoStart with store := photosVisit.final.store }

/-- What the later visit signs with: the token that was granted for the first service. -/
def mailAccessor : Accessor :=
  (Accessor.consumerOnly ⟨"key", .hmac "secret", none, none⟩ .get .authHeader).setAccessToken
    ⟨"granted", "hidden", none, none⟩ .clientState

theorem incomingState_mailVisit : mailVisit.call.incomingState mailVisit.start.clock.millis =
    { accessToken := some "granted", accessTokenSecret := some "hidden", owner := some "ann" } := by
  have ends : (photosVisit.call.fetch photosVisit.start).1.isOk = true := by decide +kernel
  have young : mailVisit.start.clock.millis.toNat - photosVisit.final.clock.millis.toNat ≤
      photosVisit.call.policy.stateMaxAge := by decide +kernel
  obtain ⟨response, answered⟩ := exists_of_isOk ends
  rw [incomingState_of_told (v := mailVisit) answered rfl rfl rfl young]
  decide +kernel

theorem session_of_services : Session photosVisit.call.policy ([photosVisit] ++ mailVisit :: [])
    mailVisit.final.store := by
  refine .visit (.visit (.start rfl) rfl .nothing) rfl ?_
  cases told : photosVisit.toldState? with
  | none =>
    have nothing : mailVisit.call.args.clientState = none := told
    rw [nothing]
    exact .nothing
  | some blob =>
    have brought : mailVisit.call.args.clientState = some blob := told
    rw [brought]
    exact .told List.mem_cons_self told

/-- A token that was granted for one service and is in the state of its viewer is sent to the
provider of another service, although it is not that call's own. -/
theorem sends_foreign_token :
    Session photosVisit.call.policy ([photosVisit] ++ mailVisit :: []) mailVisit.final.store ∧
      mailVisit.viewer = photosVisit.viewer ∧
      mailVisit.call.args.clientState = photosVisit.toldState? ∧
      photosVisit.final.state.Offers "granted" ∧
      photosVisit.call.args.service = "photos" ∧ mailVisit.call.args.service = "mail" ∧
      ∃ e, mailVisit.final.sent = [] ++ e :: [] ∧ mailVisit.call.Carries e "granted" ∧
        ¬ Own mailVisit.call mailVisit.start [] "granted" := by
  have offers : photosVisit.final.state.accessInfo? = some ⟨"granted", "hidden", none, none⟩ := by
    decide +kernel
  have built : Accessor.build mailVisit.start.store mailVisit.call.args mailVisit.call.token
      mailVisit.call.services (mailVisit.call.incomingState mailVisit.start.clock.millis) =
      .ok mailAccessor := by
    rw [incomingState_mailVisit]
    decide +kernel
  obtain ⟨e, sent, -, carries⟩ := Visit.carries_of_found (v := mailVisit) rfl (by decide +kernel)
    (by decide +kernel) built rfl rfl rfl rfl (by decide +kernel) rfl rfl
  refine ⟨session_of_services, rfl, rfl, .inr ⟨_, offers, rfl⟩, rfl, rfl, e, sent, carries,
    fun own => ?_⟩
  have unstored : mailVisit.call.stored? mailVisit.start.store = none := by decide +kernel
  cases own with
  | named named => cases named
  | declared declared mem =>
    obtain rfl := Except.ok.inj declared
    rcases mem with mem | mem
    · revert mem
      decide +kernel
    · revert mem
      decide +kernel
  | stored held => cases unstored.symm.trans held
  | granted mem => cases mem

end DelegatedFetch
