import DelegatedFetch.Proofs.Fetch.Alone

/-!
# Visitors and optional tokens

A token may be optional for a call. Then a visitor who has no access token is
served all the same: the request is signed by the consumer alone.

A visitor's call that comes with a request token is another matter. It is taken
for the completion of an approval, which only the owner of the page may do, and
so it is refused before anything is sent.
-/

namespace DelegatedFetch

/-- Whatever a resource answers, it is not that the viewer does not own the page. -/
theorem Response.kind_of_resourceFailure? {r : Response} {used : Bool} {failure : ResourceFailure}
    (failed : r.resourceFailure? used = some failure) : failure.refusal.kind ≠ .notOwner := by
  rw [resourceFailure?] at failed
  split at failed
  · cases failed
  · split at failed
    · cases failed
      intro owner
      cases owner
    · split at failed
      · cases failed
        intro owner
        cases owner
      · cases failed

namespace Call

open Step

variable {c : Call} {s : Surroundings} {a : Accessor} {p : Progress} {b : BoundToken}
  {signed : Request}

/-- With whatever token, the consumer is the one that signs alone. -/
theorem build_of_token (kind : c.args.kind = .delegated)
    (chosen : Accessor.delegatedToken p.store (c.arguments p) c.token p.state = .ok b)
    (found : c.alone p.store = .ok a) :
    Accessor.build p.store (c.arguments p) c.token c.services p.state = .ok (a.setToken b) := by
  obtain ⟨service, -, -⟩ := c.arguments_eq p
  rw [alone, Accessor.build] at found
  rw [Accessor.build, c.arguments_kind p, service, kind]
  simp only [kind] at found ⊢
  rw [chosen]
  cases declared : c.services.provider c.args.service with
  | error r =>
    rw [declared] at found
    cases found
  | ok provider =>
    rw [declared] at found
    cases registered : p.store.consumer c.token c.args.service (some provider) with
    | error r =>
      simp only [bind, Except.bind, registered] at found
      cases found
    | ok consumer =>
      simp only [bind, Except.bind, registered] at found ⊢
      obtain rfl := Except.ok.inj found
      rw [Accessor.setToken_setToken]
      rfl

/-- Without a token among the arguments or in the store, the carried one is chosen. -/
theorem delegatedToken_of_unstored {args : FetchArguments} {t : SecurityToken} {store : Store}
    {state : ClientState} (wanted : args.tokenUse ≠ .never) (unnamed : args.requestToken = none)
    (unstored : ∀ info, store.token? t args.service args.tokenName ≠ .ok (some info)) :
    Accessor.delegatedToken store args t state = .ok (Accessor.carriedToken state) := by
  rw [Accessor.delegatedToken, if_neg wanted]
  simp only [unnamed]
  split
  · rename_i known
    cases looked : store.token? t args.service args.tokenName with
    | error r =>
      rw [TokenKey.viewer_of_map_error looked] at known
      cases known
    | ok found =>
      cases found with
      | none => rfl
      | some info => exact absurd looked (unstored info)
  · rfl

theorem delegatedToken_of_named {args : FetchArguments} {t : SecurityToken} {store : Store}
    {state : ClientState} {token : String} (wanted : args.tokenUse ≠ .never)
    (named : args.requestToken = some token) :
    Accessor.delegatedToken store args t state =
      .ok (.request token (args.requestTokenSecret.getD "") .arguments) := by
  rw [Accessor.delegatedToken, if_neg wanted]
  simp only [named]
  rfl

theorem forgetRequestToken_run (a : Accessor) (p : Progress) :
    forgetRequestToken a p = (.ok (), afterForgetting a p) := by
  have forgets : Ensures (· = p) (forgetRequestToken a) (fun _ p' => p' = afterForgetting a p)
      fun _ _ => False := ensures_forgetRequestToken fun _ same => same ▸ rfl
  rcases ran : forgetRequestToken a p with ⟨stop | done, p'⟩
  · exact (forgets.stop rfl ran).elim
  · rw [forgets.answer rfl ran]

theorem exchangeRequestToken_foreign (visitor : c.token.viewerIsOwner = false) (a : Accessor)
    (p : Progress) :
    c.exchangeRequestToken a p = (.error (.refused .completionByOther), p) := by
  rw [exchangeRequestToken]
  simp only [visitor]
  rfl

/-- A visitor who comes with a request token is refused, and the token is forgotten. -/
theorem attempt_foreign (recovered : Bool) (kind : c.args.kind = .delegated)
    (visitor : c.token.viewerIsOwner = false)
    (built : Accessor.build p.store (c.arguments p) c.token c.services p.state = .ok a)
    (request : ¬ a.token.IsSettled) : c.attempt recovered p =
      (.error (.refused .completionByOther), afterForgetting a p) := by
  rw [attempt, get_bind_run, built, ok_bind_run, kind]
  change c.delegatedFetch recovered a p = _
  cases bound : a.token with
  | none => exact absurd (bound ▸ BoundToken.isSettled_none) request
  | access info source => exact absurd (bound ▸ BoundToken.isSettled_access info source) request
  | request token secret source =>
    have fresh : a.isExpired p.clock.millis = false := by
      rw [Accessor.isExpired_eq, bound]
      rfl
    rw [delegatedFetch, bind_run, refresh_run (.inr fresh)]
    simp only [bound]
    rw [complete, bind_run, observing_run, exchangeRequestToken_foreign visitor]
    simp only
    rw [bind_run, forgetRequestToken_run]
    rfl

/-- What a call comes to that uses no token, by the reply to its one request. -/
def concluded : Except String Response → Except Stop (Option Response)
  | .error text => .error (.failed (.transport text))
  | .ok response =>
    match response.resourceFailure? false with
    | none => .ok (some response)
    | some failure => .error (.refused failure.refusal)

theorem kind_of_concluded {outcome : Except String Response} {r : Refusal}
    (refused : concluded outcome = .error (.refused r)) : r.kind ≠ .notOwner := by
  cases outcome with
  | error text => cases refused
  | ok response =>
    rw [concluded] at refused
    cases failed : response.resourceFailure? false with
    | none =>
      rw [failed] at refused
      cases refused
    | some failure =>
      rw [failed] at refused
      cases refused
      exact Response.kind_of_resourceFailure? failed

/-- Without a cache, the one request is sent. -/
theorem fetchAlone_run {entropy : Entropy} (uncached : p.cache = none)
    (signs : c.request.sign a.credentials (c.identityPairs a) a.placement p.clock p.entropy =
      (.ok signed, entropy)) : c.fetchAlone a p =
      (concluded (c.replies p.sent.length).outcome,
        c.afterSend .resource signed { p with entropy }) := by
  rw [fetchAlone, bind_run, fetchResource_run uncached signs]
  cases (c.replies p.sent.length).outcome with
  | error text => rfl
  | ok response =>
    dsimp only [received, concluded]
    cases response.resourceFailure? false with
    | none => rfl
    | some failure => rfl

/-- A visitor's call that may use a token, without an access token to use; nothing else is wrong
with it, and the consumer alone can sign its request. -/
structure Visiting (c : Call) (s : Surroundings) (a : Accessor) (signed : Request) : Prop where
  kind : c.args.kind = .delegated
  optional : c.args.tokenUse = .ifAvailable
  visitor : c.token.viewerIsOwner = false
  unstored : c.stored? s.store = none
  uncarried : (c.incomingState s.clock.millis).accessInfo? = none
  clean : c.request.checkCaller = .ok ()
  identity : c.checkIdentity = .ok ()
  found : c.alone s.store = .ok a
  signs : (c.request.sign a.credentials (c.identityPairs a) a.placement s.clock s.entropy).1 =
    .ok signed
  uncached : s.cache = none

/-- A request token comes with the call: among its arguments, or in the state that is brought. -/
def BringsRequest (c : Call) (s : Surroundings) : Prop :=
  c.args.requestToken ≠ none ∨ (c.incomingState s.clock.millis).requestToken ≠ none

namespace Visiting

theorem wanted (h : Visiting c s a signed) : c.args.tokenUse ≠ .never := by
  rw [h.optional]
  decide

/-- What is bound: a request token that comes with the call, and else nothing. -/
theorem chosen (h : Visiting c s a signed) : ∃ b,
    Accessor.delegatedToken s.store c.args c.token (c.incomingState s.clock.millis) = .ok b ∧
      (c.BringsRequest s → ¬ b.IsSettled) ∧ (¬ c.BringsRequest s → b = .none) := by
  cases named : c.args.requestToken with
  | some token =>
    have brings : c.BringsRequest s := .inl (by rw [named]; exact nofun)
    exact ⟨_, delegatedToken_of_named h.wanted named, fun _ settled => settled _ _ _ rfl,
      fun brings' => absurd brings brings'⟩
  | none =>
    have unstored (info : TokenInfo) :
        s.store.token? c.token c.args.service c.args.tokenName ≠ .ok (some info) := fun held => by
      rw [← stored?_eq_some_iff, h.unstored] at held
      cases held
    refine ⟨_, delegatedToken_of_unstored h.wanted named unstored, ?_⟩
    rw [BringsRequest, named, Accessor.carriedToken, h.uncarried]
    cases (c.incomingState s.clock.millis).requestToken with
    | none => exact ⟨fun brings => by simp at brings, fun _ => rfl⟩
    | some token =>
      exact ⟨fun _ settled => settled _ _ _ rfl, fun brings => absurd (.inr nofun) brings⟩

theorem run_eq (h : Visiting c s a signed) : c.run (c.begun s) = c.loop false (c.begun s) := by
  rw [run, h.clean, ok_bind_run, h.identity, ok_bind_run]

/-- Without a request token, the consumer alone signs the one request. -/
theorem served (h : Visiting c s a signed) (brings : ¬ c.BringsRequest s) :
    (c.fetch s).2.sent = [⟨.resource, signed, (c.replies 0).outcome.toOption⟩] ∧
      ∀ r, (c.run (c.begun s)).1 = .error (.refused r) → r.kind ≠ .notOwner := by
  obtain ⟨b, chosen, -, unbound⟩ := h.chosen
  have same : a.setToken b = a := by
    rw [unbound brings]
    exact (Accessor.coherent_build h.found).clearToken_eq (alone_unbound h.found)
  have built := build_of_token (p := c.begun s) h.kind chosen h.found
  rw [same] at built
  have optional (_ : c.args.kind = .delegated) : c.args.tokenUse ≠ .always := by
    rw [h.optional]
    decide
  obtain ⟨entropy, made⟩ : ∃ entropy, c.request.sign a.credentials (c.identityPairs a) a.placement
      s.clock s.entropy = (.ok signed, entropy) := ⟨_, Prod.ext h.signs rfl⟩
  have fetched := fetchAlone_run (p := c.begun s) h.uncached made
  have ran := h.run_eq.trans (loop_alone built (alone_unbound h.found) optional)
  rw [fetched] at ran
  obtain ⟨entropy', left⟩ := c.fetch_progress s
  rw [left, ran]
  exact ⟨rfl, fun r => kind_of_concluded⟩

/-- With a request token, nothing is sent. -/
theorem refused (h : Visiting c s a signed) (brings : c.BringsRequest s) :
    (c.fetch s).2.sent = [] ∧ (c.run (c.begun s)).1 = .error (.refused .completionByOther) := by
  obtain ⟨b, chosen, request, -⟩ := h.chosen
  have built := build_of_token (p := c.begun s) h.kind chosen h.found
  have ran : c.run (c.begun s) =
      (.error (.refused .completionByOther), afterForgetting (a.setToken b) (c.begun s)) := by
    rw [h.run_eq, loop_eq, attempt_foreign false h.kind h.visitor built]
    rw [Accessor.token_setToken]
    exact request brings
  obtain ⟨entropy, left⟩ := c.fetch_progress s
  rw [left, ran]
  exact ⟨rfl, rfl⟩

/-- A visitor for whom a token is optional, and who has no access token, is served: the one request
is for the resource, is signed by the consumer alone and carries no token, and the answer is never
that the visitor does not own the page. All this only if no request token comes with the call; with
one, nothing is sent, and that is just the answer. -/
theorem served_unless_brought (h : Visiting c s a signed) :
    (¬ c.BringsRequest s →
      (c.fetch s).2.sent = [⟨.resource, signed, (c.replies 0).outcome.toOption⟩] ∧
        a.token = .none ∧ tokensIn (Request.writtenPairs a.placement signed) = [] ∧
        ∀ r, (c.run (c.begun s)).1 = .error (.refused r) → r.kind ≠ .notOwner) ∧
    (c.BringsRequest s → (c.fetch s).2.sent = [] ∧
      (c.run (c.begun s)).1 = .error (.refused .completionByOther)) := by
  refine ⟨fun brings => ?_, h.refused⟩
  obtain ⟨sent, owner⟩ := h.served brings
  have unbound := alone_unbound h.found
  obtain ⟨fits, made⟩ := Request.signWith_of_sign h.signs
  obtain ⟨fit, foreign⟩ := extraFit_of_names (c.names_of_identityPairs a)
  refine ⟨sent, unbound, ?_, owner⟩
  rw [Request.tokensIn_signWith h.clean fit foreign fits made, Accessor.credentials_eq, unbound]
  rfl

end Visiting

/-- The call of a visitor to ann's page, who may name a request token. -/
def visitorsCall (requestToken : Option String) : Call :=
  let call := photoCall fun _ => found
  { call with
    token := { call.token with viewer := some "bob" }
    args := { call.args with tokenUse := .ifAvailable, requestToken } }

/-- What signs it: the consumer alone. -/
def visitorsAccessor : Accessor := .consumerOnly ⟨"key", .hmac "secret", none, none⟩ .get .authHeader

theorem visiting_visitorsCall (requestToken : Option String) :
    ∃ signed, Visiting (visitorsCall requestToken) photoStart visitorsAccessor signed := by
  have signs : ((visitorsCall none).request.sign visitorsAccessor.credentials
      ((visitorsCall none).identityPairs visitorsAccessor) visitorsAccessor.placement
      photoStart.clock photoStart.entropy).1.isOk = true := by decide +kernel
  have clean : (visitorsCall none).request.checkCaller = .ok () := by decide +kernel
  have unstored : (visitorsCall none).stored? photoStart.store = none := by decide +kernel
  obtain ⟨signed, made⟩ := exists_of_isOk signs
  exact ⟨signed, rfl, rfl, rfl, unstored, rfl, clean, rfl, rfl, made, rfl⟩

/-- Bob gets ann's photos without a token. -/
theorem Visiting.served_unless_brought_bob : ∃ signed,
    ((visitorsCall none).fetch photoStart).2.sent =
        [⟨.resource, signed, ((visitorsCall none).replies 0).outcome.toOption⟩] ∧
      tokensIn (Request.writtenPairs .authHeader signed) = [] := by
  obtain ⟨signed, visiting⟩ := visiting_visitorsCall none
  have brings : ¬ (visitorsCall none).BringsRequest photoStart := by
    rintro (named | held)
    · exact named rfl
    · exact held rfl
  obtain ⟨sent, -, tokens, -⟩ := (Visiting.served_unless_brought visiting).1 brings
  exact ⟨signed, sent, tokens⟩

/-- Bob gets nothing of them when he names a request token, although the same request could be
signed. -/
theorem refuses_visitor : ∃ signed,
    Visiting (visitorsCall (some "approved")) photoStart visitorsAccessor signed ∧
      ((visitorsCall (some "approved")).fetch photoStart).2.sent = [] ∧
      ((visitorsCall (some "approved")).run ((visitorsCall (some "approved")).begun photoStart)).1 =
        .error (.refused .completionByOther) ∧
      Refusal.completionByOther.code = RefusalKind.notOwner.code := by
  obtain ⟨signed, visiting⟩ := visiting_visitorsCall (some "approved")
  obtain ⟨sent, refused⟩ := visiting.refused (.inl nofun)
  exact ⟨signed, visiting, sent, refused, rfl⟩

end Call
end DelegatedFetch
