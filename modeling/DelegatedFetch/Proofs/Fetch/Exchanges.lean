import DelegatedFetch.Proofs.Fetch.Cached
import DelegatedFetch.Proofs.Fetch.Issued

/-!
# How the parts of a call end

Each part of a call that exchanges something with another host can end in a few
ways: its request is not signed, there is no response, the response is not what
is wanted, or it is. For each part, these ways are listed with all that the part
changes. An exchange is signed with what its accessor is bound to, and takes as
long as its reply does.
-/

namespace DelegatedFetch

/-- What an exchange got for the resource, if it was made for that. -/
def Exchange.resource? (e : Exchange) : Option Response :=
  if e.purpose = .resource then e.response else none

/-- What an access token was issued with, if the exchange was made to get one, and answered at a
time. -/
def Exchange.tokenInfo? (e : Exchange) (now : UInt64) : Option TokenInfo :=
  if e.purpose = .accessToken ∨ e.purpose = .extension then
    e.response.bind fun response => (response.tokenReply e.purpose.label).toOption.bind fun reply =>
      (tokenInfo reply e.purpose.label now).toOption
  else none

/-- What a provider issued, with a session handle that stays unless it named another one. -/
def TokenInfo.keepingHandle (info : TokenInfo) (handle : String) : TokenInfo :=
  { info with sessionHandle := info.sessionHandle <|> some handle }

/-- Without an access token, nothing can be mended. -/
theorem Response.not_recoverable {r : Response} {failure : ResourceFailure}
    (failed : r.resourceFailure? false = some failure) : failure.recoverable = false := by
  rw [resourceFailure?] at failed
  split at failed
  · cases failed
  · split at failed
    · cases failed
      rfl
    · simp at failed

theorem Exchange.issued?_eq (e : Exchange) (now : UInt64) :
    e.issued? = (e.tokenInfo? now).map (·.token) := by
  rw [tokenInfo?]
  by_cases forAccess : e.purpose = .accessToken ∨ e.purpose = .extension
  · rw [if_pos forAccess]
    cases answered : e.response with
    | none => exact issued?_of_unanswered answered
    | some response =>
      cases replied : response.tokenReply e.purpose.label with
      | error r =>
        rw [issued?_of_refused answered replied, Option.bind_some, replied]
        rfl
      | ok reply =>
        rw [issued?_of_reply now forAccess answered replied, Option.bind_some, replied]
        rfl
  · rw [if_neg forAccess, issued?_of_purpose forAccess]
    rfl

namespace Call

open Step

variable {c : Call} {s : Surroundings} {a : Accessor} {q p : Progress} {purpose : Purpose}

/-- Nothing has changed but random bytes and the cache, which has gained nothing. -/
structure Still (q p : Progress) : Prop where
  clock : p.clock = q.clock
  store : p.store = q.store
  state : p.state = q.state
  spent : p.argumentTokenSpent = q.argumentTokenSpent
  approvalUrl : p.approvalUrl = q.approvalUrl
  sent : p.sent = q.sent
  gains : CacheGains none q.cache p.cache

theorem Still.refl (q : Progress) : Still q q := ⟨rfl, rfl, rfl, rfl, rfl, rfl, .refl⟩

theorem Still.answers (h : Still q p) (answers : OnlySuccesses q.cache) : OnlySuccesses p.cache :=
  answers.gains h.gains

/-- An exchange has taken place, signed with what the accessor is bound to. -/
structure Exchanged (c : Call) (s : Surroundings) (a : Accessor) (purpose : Purpose)
    (q : Progress) (x : Exchange) (p : Progress) : Prop where
  purpose : x.purpose = purpose
  response : x.response = (c.replies q.sent.length).outcome.toOption
  signed : ∃ g : Signing, g.bound = a.token ∧ g.Of c s q.sent x.purpose x.request
  clock : p.clock = q.clock.advance (c.replies q.sent.length).delay
  store : p.store = q.store
  state : p.state = q.state
  spent : p.argumentTokenSpent = q.argumentTokenSpent
  approvalUrl : p.approvalUrl = q.approvalUrl
  sent : p.sent = q.sent ++ [x]
  gains : CacheGains x.resource? q.cache p.cache

theorem Exchanged.answers {x : Exchange} (h : Exchanged c s a purpose q x p)
    (answers : OnlySuccesses q.cache) : OnlySuccesses p.cache :=
  answers.gains h.gains

/-- The reply to an exchange that failed has no response. -/
theorem Exchanged.silent {x : Exchange} {text : String} (h : Exchanged c s a purpose q x p)
    (lost : (c.replies q.sent.length).outcome = .error text) : x.response = none := by
  rw [h.response, lost]
  rfl

/-- The exchange that has taken place is the last one. -/
theorem Exchanged.last_unique {x y : Exchange} (h : Exchanged c s a purpose q x p)
    (sent : p.sent = q.sent ++ [y]) : x = y := by
  obtain ⟨-, same⟩ := List.append_inj' (h.sent.symm.trans sent) rfl
  exact (List.cons.inj same).1

/-- An exchange was answered. -/
def Got (c : Call) (s : Surroundings) (a : Accessor) (purpose : Purpose) (q : Progress)
    (response : Response) (p : Progress) : Prop :=
  ∃ x, Exchanged c s a purpose q x p ∧ x.response = some response

/-- An exchange was not answered: its request cannot be signed, or there is no response. -/
inductive Unanswered (c : Call) (s : Surroundings) (a : Accessor) (purpose : Purpose)
    (q : Progress) : Stop → Progress → Prop
  | unsigned {p : Progress} {r : Refusal} (still : Still q p)
      (means : purpose = .accessToken ∨ purpose = .extension → ¬ c.SignsAccess s)
      (other : (Stop.refused r).isTokenFailure = false) : Unanswered c s a purpose q (.refused r) p
  | unreached {p : Progress} {x : Exchange} {text : String} (exchanged : Exchanged c s a purpose q x p)
      (lost : (c.replies q.sent.length).outcome = .error text) :
      Unanswered c s a purpose q (.failed (.transport text)) p

/-- A part of a call that is refused before its request is sent changes nothing. -/
theorem Unanswered.still {stop : Stop} (h : Unanswered c s a purpose q stop p)
    (refused : ∀ f, stop ≠ .failed f) : Still q p := by
  cases h with
  | unsigned still => exact still
  | unreached => exact absurd rfl (refused _)

/-- A request that is signed for a purpose with what an accessor is bound to. -/
def SignedBy (c : Call) (s : Surroundings) (a : Accessor) (purpose : Purpose) (q : Progress)
    (signed : Request) (p : Progress) : Prop :=
  Still q p ∧ ∃ g : Signing, g.bound = a.token ∧ g.Of c s q.sent purpose signed

theorem ensures_signBy {bare : Request} {placement : Placement} (sound : Sound c s a q)
    (bareFor : c.bareRequest purpose = .ok bare)
    (placementFor : c.declaredPlacement purpose = .ok placement)
    (clean : purpose = .resource → bare.checkCaller = .ok () ∧ a.token.IsSettled) :
    Ensures (Still q) (sign bare a.credentials (c.extraPairs purpose a) placement)
      (SignedBy c s a purpose q) (Unanswered c s a purpose q) := by
  refine ensures_sign (fun p signed stamp entropy still fits made => ?_)
    fun p r entropy still unmade => ?_
  · have of := sound.2.signing bareFor placementFor clean fits made
    exact ⟨⟨still.clock, still.store, still.state, still.spent, still.approvalUrl, still.sent,
      still.gains⟩, _, rfl, of⟩
  · refine .unsigned ⟨still.clock, still.store, still.state, still.spent, still.approvalUrl,
      still.sent, still.gains⟩ (fun forAccess means => ?_) ?_
    · obtain ⟨consumer, bare', placement', found, bareFor', placementFor', fits, room⟩ := means
      have same : c.bareRequest purpose = c.bareRequest .extension ∧
          c.declaredPlacement purpose = c.declaredPlacement .extension := by
        rcases forAccess with rfl | rfl
        · exact ⟨rfl, rfl⟩
        · exact ⟨rfl, rfl⟩
      obtain rfl := Except.ok.inj (sound.2.consumer.symm.trans found)
      obtain rfl := Except.ok.inj (bareFor.symm.trans (same.1.trans bareFor'))
      obtain rfl := Except.ok.inj (placementFor.symm.trans (same.2.trans placementFor'))
      exact Request.not_fits_of_sign_error unmade ⟨fits, room⟩
    · rcases Request.refusal_of_sign_error unmade with rfl | rfl
      · rfl
      · rfl

theorem ensures_sendSigned {signed : Request} :
    Ensures (SignedBy c s a purpose q signed) (c.send purpose signed) (Got c s a purpose q)
      (Unanswered c s a purpose q) := by
  have exchanged {p : Progress} (h : SignedBy c s a purpose q signed p) :
      Exchanged c s a purpose q ⟨purpose, signed, (c.replies p.sent.length).outcome.toOption⟩
        (c.afterSend purpose signed p) := by
    obtain ⟨still, of⟩ := h
    have same : c.replies p.sent.length = c.replies q.sent.length := by rw [still.sent]
    refine ⟨rfl, by rw [same], of, ?_, still.store, still.state, still.spent, still.approvalUrl, ?_,
      still.gains.weaken⟩
    · rw [afterSend, same, still.clock]
    · rw [afterSend, still.sent]
  refine ensures_send (fun p response h answered => ?_) fun p text h unanswered => ?_
  · refine ⟨_, exchanged h, ?_⟩
    rw [answered]
    rfl
  · refine .unreached (exchanged h) ?_
    rw [← h.1.sent, unanswered]

/-- An exchange with an endpoint of the service. -/
theorem ensures_exchange {endpoint : Endpoint} (sound : Sound c s a q)
    (bareFor : c.bareRequest purpose = .ok endpoint.bare)
    (placementFor : c.declaredPlacement purpose = .ok endpoint.placement)
    (ofToken : purpose ≠ .resource) :
    Ensures (· = q) (c.exchange purpose endpoint a.credentials (c.extraPairs purpose a))
      (Got c s a purpose q) (Unanswered c s a purpose q) :=
  ((ensures_signBy sound bareFor placementFor fun resource => absurd resource ofToken).of_imp
    fun _ same => by rw [same]; exact Still.refl q).bind fun _ => ensures_sendSigned

/-- A reply without a token is refused for that. -/
theorem tokenInfo_eq_error {reply : Pairs} {endpoint : String} {time : UInt64} {r : Refusal}
    (h : tokenInfo reply endpoint time = .error r) : r = .replyWithoutToken endpoint := by
  rw [tokenInfo] at h
  cases pair : tokenPair reply endpoint with
  | ok found =>
    rw [pair] at h
    cases h
  | error refused =>
    rw [pair] at h
    obtain rfl := Except.error.inj h
    rw [tokenPair] at pair
    split at pair
    · split at pair
      · exact (Except.error.inj pair).symm
      · cases pair
    · exact (Except.error.inj pair).symm

/-- A reply issues no access token, and is refused for it. -/
structure Refuses (x : Exchange) (r : Refusal) : Prop where
  answered : ∃ response, x.response = some response
  silent : x.issued? = none
  failure : (Stop.refused r).isTokenFailure = true →
    ∃ response, x.response = some response ∧ response.tokenReply x.purpose.label = .error r

/-- How an exchange with the access endpoint can end: there is no answer, the answer is refused, or
it issues a token at the time it comes. -/
theorem ensures_access_bind {α : Type} {provider : Provider} {f : TokenInfo → Step α}
    {Q : α → Progress → Prop} {E : Stop → Progress → Prop} (sound : Sound c s a q)
    (forAccess : purpose = .accessToken ∨ purpose = .extension) (kind : c.args.kind = .delegated)
    (declared : c.services.provider c.args.service = .ok provider)
    (unanswered : ∀ stop p, Unanswered c s a purpose q stop p → E stop p)
    (refused : ∀ x r p, Exchanged c s a purpose q x p → Refuses x r → E (.refused r) p)
    (issued : ∀ x info, Ensures (fun p => Exchanged c s a purpose q x p ∧
      x.tokenInfo? p.clock.millis = some info) (f info) Q E) :
    Ensures (· = q) (do
      let response ← c.exchange purpose provider.access a.credentials (c.extraPairs purpose a)
      let reply ← ofExcept (response.tokenReply purpose.label)
      let info ← ofExcept (tokenInfo reply purpose.label (← now))
      f info) Q E := by
  obtain ⟨bareFor, placementFor⟩ := access_declared forAccess kind declared
  have notResource : purpose ≠ .resource := by
    rcases forAccess with rfl | rfl <;> decide
  apply ((ensures_exchange sound bareFor placementFor notResource).weaken (fun _ h => h)
    (fun _ _ h => h) unanswered).bind
  intro response
  apply ensures_ofExcept_bind
  · rintro r unread p ⟨x, exchanged, answered⟩
    obtain rfl := exchanged.purpose
    exact refused x r p exchanged ⟨⟨response, answered⟩, Exchange.issued?_of_refused answered unread,
      fun _ => ⟨response, answered, unread⟩⟩
  intro reply replied
  apply Ensures.bind (ensures_now (Q := fun time p => time = p.clock.millis ∧
    Got c s a purpose q response p) fun _ h => ⟨rfl, h⟩)
  intro time
  apply ensures_ofExcept_bind
  · rintro r unread p ⟨rfl, x, exchanged, answered⟩
    obtain rfl := exchanged.purpose
    have silent : x.issued? = none := by
      rw [Exchange.issued?_of_reply p.clock.millis forAccess answered replied, unread]
      rfl
    refine refused x r p exchanged ⟨⟨response, answered⟩, silent, fun failed => ?_⟩
    rw [tokenInfo_eq_error unread] at failed
    cases failed
  rintro info read p ⟨rfl, x, exchanged, answered⟩
  obtain rfl := exchanged.purpose
  refine issued x info p ⟨exchanged, ?_⟩
  rw [Exchange.tokenInfo?, if_pos forAccess, answered, Option.bind_some, replied]
  change (tokenInfo reply x.purpose.label p.clock.millis).toOption = _
  rw [read]
  rfl

/-- How a session is extended, or is not. The handle stays, if the provider names no other. -/
inductive Extended (c : Call) (s : Surroundings) (a : Accessor) (handle : String) (q : Progress) :
    Except Stop Accessor → Progress → Prop
  | unanswered {stop : Stop} {p : Progress} (unanswered : Unanswered c s a .extension q stop p) :
      Extended c s a handle q (.error stop) p
  | refused {x : Exchange} {r : Refusal} {p : Progress}
      (exchanged : Exchanged c s a .extension q x p) (refuses : Refuses x r) :
      Extended c s a handle q (.error (.refused r)) p
  | unkept {x : Exchange} {info : TokenInfo} {r : Refusal} {p : Progress}
      (exchanged : Exchanged c s a .extension q x p)
      (issued : x.tokenInfo? p.clock.millis = some info) (server : c.policy.persistence = .server)
      (stranger : c.token.viewer = none) : Extended c s a handle q (.error (.refused r)) p
  | extended {x : Exchange} {info : TokenInfo} {source : TokenSource} {p p' : Progress}
      (exchanged : Exchanged c s a .extension q x p)
      (issued : x.tokenInfo? p.clock.millis = some info)
      (kept : Kept c (info.keepingHandle handle) p source p') :
      Extended c s a handle q (.ok (a.setAccessToken (info.keepingHandle handle) source)) p'

theorem extended_of_run {handle : String} {outcome : Except Stop Accessor} (sound : Sound c s a q)
    (held : a.sessionHandle? = some handle) (ran : c.extendSession a handle q = (outcome, p)) :
    Extended c s a handle q outcome p := by
  have kind := delegated_of_sessionHandle sound.2 held
  obtain ⟨provider, declared, -, -⟩ := sound.2.declared kind
  have extra : [(Parameter.sessionHandle, handle)] = c.extraPairs .extension a := by
    simp only [extraPairs, held, Option.map_some, Option.toList_some]
  refine Ensures.outcome (P := (· = q)) ?_ rfl ran
  rw [extendSession, extra]
  apply ensures_ofExcept_bind fun r undeclared => absurd (declared.symm.trans undeclared) (by simp)
  intro provider' declared'
  obtain rfl := Except.ok.inj (declared.symm.trans declared')
  refine ensures_access_bind sound (.inr rfl) kind declared (fun _ _ h => .unanswered h)
    (fun _ _ _ exchanged refuses => .refused exchanged refuses) fun x info => ?_
  refine Ensures.bind (R := fun source p' => ∃ p, Exchanged c s a .extension q x p ∧
    x.tokenInfo? p.clock.millis = some info ∧ Kept c (info.keepingHandle handle) p source p')
    (ensures_persist (fun p p' source h kept => ⟨p, h.1, h.2, kept⟩)
      fun p r h server stranger => .unkept h.1 h.2 server stranger) fun source => ?_
  refine ensures_pure fun p' h => ?_
  obtain ⟨p, exchanged, issued, kept⟩ := h
  exact .extended exchanged issued kept

/-- How a request token is traded, or is not. What it is traded for can be kept, since there is a
viewer who owns the page. -/
inductive Traded (c : Call) (s : Surroundings) (a : Accessor) (q : Progress) :
    Except Stop Accessor → Progress → Prop
  | foreign {r : Refusal} (other : (Stop.refused r).isTokenFailure = false) :
      Traded c s a q (.error (.refused r)) q
  | unanswered {stop : Stop} {p : Progress} (unanswered : Unanswered c s a .accessToken q stop p) :
      Traded c s a q (.error stop) p
  | refused {x : Exchange} {r : Refusal} {p : Progress}
      (exchanged : Exchanged c s a .accessToken q x p) (refuses : Refuses x r) :
      Traded c s a q (.error (.refused r)) p
  | traded {x : Exchange} {info : TokenInfo} {source : TokenSource} {p p' : Progress}
      (exchanged : Exchanged c s a .accessToken q x p)
      (issued : x.tokenInfo? p.clock.millis = some info)
      (kept : Kept c info (afterForgetting a p) source p') :
      Traded c s a q (.ok (a.setAccessToken info source)) p'

theorem traded_of_run {outcome : Except Stop Accessor} (sound : Sound c s a q)
    (kind : c.args.kind = .delegated) (ran : c.exchangeRequestToken a q = (outcome, p)) :
    Traded c s a q outcome p := by
  obtain ⟨provider, declared, -, -⟩ := sound.2.declared kind
  refine Ensures.outcome (P := (· = q)) ?_ rfl ran
  rw [exchangeRequestToken]
  dsimp only
  split
  case isFalse => exact ensures_throw_bind fun p same => same ▸ .foreign rfl
  rename_i owner
  apply ensures_ofExcept_bind fun r undeclared => absurd (declared.symm.trans undeclared) (by simp)
  intro provider' declared'
  obtain rfl := Except.ok.inj (declared.symm.trans declared')
  refine ensures_access_bind sound (.inl rfl) kind declared (fun _ _ h => .unanswered h)
    (fun _ _ _ exchanged refuses => .refused exchanged refuses) fun x info => ?_
  apply Ensures.bind (R := fun _ p' => ∃ p, Exchanged c s a .accessToken q x p ∧
    x.tokenInfo? p.clock.millis = some info ∧ p' = afterForgetting a p)
    (ensures_forgetRequestToken fun p h => ⟨p, h.1, h.2, rfl⟩)
  intro _
  refine Ensures.bind (R := fun source p' => ∃ p, Exchanged c s a .accessToken q x p ∧
    x.tokenInfo? p.clock.millis = some info ∧ Kept c info (afterForgetting a p) source p')
    (ensures_persist (fun p' p'' source h kept => ?_) fun p r h server stranger => ?_)
    fun source => ensures_pure fun p' h => ?_
  · obtain ⟨p, exchanged, issued, rfl⟩ := h
    exact ⟨p, exchanged, issued, kept⟩
  · rw [SecurityToken.viewerIsOwner, stranger] at owner
    cases owner
  · obtain ⟨p, exchanged, issued, kept⟩ := h
    exact .traded exchanged issued kept

theorem discarded_of_run (ran : c.discardToken q = (.ok (), p)) : Discarded c q p := by
  have discards : Ensures (· = q) c.discardToken (fun _ p => Discarded c q p) fun _ _ => True :=
    ensures_discardToken fun _ _ same discarded => same ▸ discarded
  exact discards.answer rfl ran

/-- How approval is asked for. A request token that was got takes the place of the access token in the
state. -/
inductive Approved (c : Call) (s : Surroundings) (a : Accessor) (q : Progress) :
    Except Stop Unit → Progress → Prop
  | foreign {r : Refusal} : Approved c s a q (.error (.refused r)) q
  | unanswered {stop : Stop} {p : Progress} (unanswered : Unanswered c s a .requestToken q stop p) :
      Approved c s a q (.error stop) p
  | refused {x : Exchange} {response : Response} {r : Refusal} {p : Progress}
      (exchanged : Exchanged c s a .requestToken q x p) (answered : x.response = some response) :
      Approved c s a q (.error (.refused r)) p
  | approved {x : Exchange} {token secret : String} {url : Url} {p : Progress}
      (exchanged : Exchanged c s a .requestToken q x p) (grants : x.Grants token secret) :
      Approved c s a q (.ok ()) { p with
        state := { p.state.clearAccessToken with
          requestToken := some token, requestTokenSecret := some secret
          callback := a.consumer.callback }
        approvalUrl := some url }

/-- The progress once a request token was got, and with it the page where it is to be approved. -/
def afterApproval (a : Accessor) (authorization : Url) (reply : Pairs) (token secret : String)
    (p : Progress) : Progress :=
  { p with
    state := { p.state.clearAccessToken with
      requestToken := some token, requestTokenSecret := some secret
      callback := a.consumer.callback }
    approvalUrl := some (authorization.appendQuery ((Parameter.token, token) ::
      if reply.first? Parameter.callbackConfirmed = some "true" then []
      else (a.consumer.callback.map fun url => (Parameter.callback, url)).toList)) }

/-- How an exchange for a request token can end: there is no answer, the answer is refused, or it has
a token. -/
theorem ensures_requestApproval {provider : Provider} {Q : Unit → Progress → Prop}
    {E : Stop → Progress → Prop} (sound : Sound c s a q) (kind : c.args.kind = .delegated)
    (unbound : a.token = .none) (declared : c.services.provider c.args.service = .ok provider)
    (foreign : ∀ r, E (.refused r) q)
    (unanswered : ∀ stop p, Unanswered c s a .requestToken q stop p → E stop p)
    (refused : ∀ r response p, Got c s a .requestToken q response p → E (.refused r) p)
    (approved : ∀ response reply token secret p, Got c s a .requestToken q response p →
      response.tokenReply Purpose.requestToken.label = .ok reply →
        tokenPair reply Purpose.requestToken.label = .ok (token, secret) →
          Q () (afterApproval a provider.authorization reply token secret p)) :
    Ensures (· = q) (c.requestApproval a) Q E := by
  obtain ⟨provider', declared', method, placement⟩ := sound.2.declared kind
  obtain rfl := Except.ok.inj (declared.symm.trans declared')
  have bareFor : c.bareRequest .requestToken =
      .ok (Endpoint.bare ⟨provider.request.url, a.method, a.placement⟩) := by
    simp only [bareRequest, declared, method]
    rfl
  have placementFor : c.declaredPlacement .requestToken = .ok a.placement := by
    simp only [declaredPlacement, kind, declared, placement]
    rfl
  have credentials : a.consumer.credentials = a.credentials := by
    rw [Accessor.credentials_eq, unbound]
    rfl
  rw [requestApproval]
  dsimp only
  split
  case isFalse => exact ensures_throw_bind fun p same => same ▸ foreign _
  apply ensures_ofExcept_bind fun r undeclared => absurd (declared.symm.trans undeclared) (by simp)
  intro provider' declared'
  obtain rfl := Except.ok.inj (declared.symm.trans declared')
  rw [credentials]
  apply ((ensures_exchange sound bareFor placementFor (by decide)).weaken (fun _ h => h)
    (fun _ _ h => h) unanswered).bind
  intro response
  apply ensures_ofExcept_bind fun r _ p got => refused r response p got
  intro reply replied
  apply ensures_ofExcept_bind fun r _ p got => refused r response p got
  rintro ⟨token, secret⟩ pair
  refine Ensures.bind (R := fun _ p' => ∃ p, Got c s a .requestToken q response p ∧
    p' = { p with state := { p.state.clearAccessToken with
      requestToken := some token, requestTokenSecret := some secret
      callback := a.consumer.callback } })
    (ensures_modifyState fun p h => ⟨p, h, rfl⟩) fun _ => ensures_modify fun p' h => ?_
  obtain ⟨p, got, rfl⟩ := h
  exact approved response reply token secret p got replied pair

theorem approved_of_run {outcome : Except Stop Unit} (sound : Sound c s a q)
    (kind : c.args.kind = .delegated) (unbound : a.token = .none)
    (ran : c.requestApproval a q = (outcome, p)) : Approved c s a q outcome p := by
  obtain ⟨provider, declared, -, -⟩ := sound.2.declared kind
  refine Ensures.outcome (P := (· = q)) ?_ rfl ran
  refine ensures_requestApproval sound kind unbound declared (fun _ => .foreign)
    (fun _ _ h => .unanswered h) ?_ ?_
  · rintro r response p ⟨x, exchanged, answered⟩
    exact .refused exchanged answered
  · rintro response reply token secret p ⟨x, exchanged, answered⟩ replied pair
    obtain ⟨first, second⟩ := tokenPair_eq_ok pair
    exact .approved exchanged (grants_of_reply answered replied first second)

/-- How the resource is got. -/
inductive Fetched (c : Call) (s : Surroundings) (a : Accessor) (q : Progress) :
    Except Stop Response → Progress → Prop
  | cached {response : Response} {p : Progress} (still : Still q p)
      (held : c.HeldFor a q.cache response) : Fetched c s a q (.ok response) p
  | unanswered {stop : Stop} {p : Progress} (unanswered : Unanswered c s a .resource q stop p) :
      Fetched c s a q (.error stop) p
  | answered {x : Exchange} {response : Response} {p : Progress}
      (exchanged : Exchanged c s a .resource q x p) (answered : x.response = some response) :
      Fetched c s a q (.ok response) p

theorem fetched_of_run {outcome : Except Stop Response} (sound : Sound c s a q)
    (clean : c.request.checkCaller = .ok ()) (settled : a.token.IsSettled)
    (ran : c.fetchResource a q = (outcome, p)) : Fetched c s a q outcome p := by
  refine Ensures.outcome (P := (· = q)) ?_ rfl ran
  rw [fetchResource]
  apply ensures_get_bind
  rintro q' rfl
  apply Ensures.bind (R := fun hit p => Still q' p ∧
    ∀ response, hit = some response → c.HeldFor a q'.cache response)
  · refine ensures_cached? fun p cache hit same looked => ?_
    subst same
    refine ⟨⟨rfl, rfl, rfl, rfl, rfl, rfl, cacheGains_of_lookedUp looked⟩, fun response found => ?_⟩
    exact heldFor_of_lookedUp (found ▸ looked)
  intro hit
  cases hit with
  | some hit => exact ensures_pure fun p h => .cached h.1 (h.2 hit rfl)
  | none =>
    apply (((ensures_signBy sound rfl sound.2.placement_resource fun _ => ⟨clean, settled⟩).of_imp
      fun _ h => h.1).weaken (fun _ h => h) (fun _ _ h => h) fun _ _ h => .unanswered h).bind
    intro signed
    apply (ensures_sendSigned.weaken (fun _ h => h) (fun _ _ h => h) fun _ _ h => .unanswered h).bind
    intro response
    refine Ensures.bind (R := fun _ => Got c s a .resource q' response)
      (ensures_keep fun p cache h laid => ?_) fun _ => ensures_pure fun p h => ?_
    · obtain ⟨x, h, answered⟩ := h
      have got : x.resource? = some response := by rw [Exchange.resource?, if_pos h.purpose, answered]
      have gains := got ▸ h.gains
      exact ⟨x, { h with gains := got ▸ gains.trans (cacheGains_of_laidUp laid) }, answered⟩
    · obtain ⟨x, exchanged, answered⟩ := h
      exact .answered exchanged answered

/-- One exchange for a purpose is noted, and its reply has taken its time; or none is. -/
inductive Notes (c : Call) (purpose : Purpose) (q p : Progress) : Prop
  | nothing (clock : p.clock = q.clock) (sent : p.sent = q.sent)
  | exchange {x : Exchange} (made : x.purpose = purpose)
      (clock : p.clock = q.clock.advance (c.replies q.sent.length).delay)
      (sent : p.sent = q.sent ++ [x])

/-- What is noted has its purpose. -/
theorem Notes.purpose_of_mem {more : List Exchange} {y : Exchange} (h : Notes c purpose q p)
    (sent : p.sent = q.sent ++ more) (mem : y ∈ more) : y.purpose = purpose := by
  cases h with
  | nothing _ same =>
    obtain rfl := List.append_right_eq_self.1 (sent.symm.trans same)
    cases mem
  | exchange made _ last =>
    obtain rfl := List.append_cancel_left (sent.symm.trans last)
    rw [List.mem_singleton.1 mem, made]

/-- What was sent first stays so. -/
theorem Notes.head? {e : Exchange} (h : Notes c purpose q p) (first : q.sent.head? = some e) :
    p.sent.head? = some e := by
  cases h with
  | nothing _ sent => rwa [sent]
  | exchange _ _ sent => rw [sent, List.head?_append, first, Option.some_or]

theorem Still.notes (h : Still q p) : Notes c purpose q p := .nothing h.clock h.sent

theorem Exchanged.notes {x : Exchange} (h : Exchanged c s a purpose q x p) : Notes c purpose q p :=
  .exchange h.purpose h.clock h.sent

theorem Unanswered.notes {stop : Stop} (h : Unanswered c s a purpose q stop p) :
    Notes c purpose q p := by
  cases h with
  | unsigned still => exact still.notes
  | unreached exchanged => exact exchanged.notes

theorem Notes.kept {info : TokenInfo} {source : TokenSource} {p' : Progress}
    (h : Notes c purpose q p) (kept : Kept c info p source p') : Notes c purpose q p' := by
  cases h with
  | nothing clock sent => exact .nothing (kept.clock.trans clock) (kept.sent.trans sent)
  | exchange made clock sent => exact .exchange made (kept.clock.trans clock) (kept.sent.trans sent)

theorem Notes.afterForgetting (h : Notes c purpose q p) :
    Notes c purpose q (Call.afterForgetting a p) := by
  cases h with
  | nothing clock sent => exact .nothing clock sent
  | exchange made clock sent => exact .exchange made clock sent

theorem Extended.notes {handle : String} {outcome : Except Stop Accessor}
    (h : Extended c s a handle q outcome p) : Notes c .extension q p := by
  cases h with
  | unanswered unanswered => exact unanswered.notes
  | refused exchanged | unkept exchanged => exact exchanged.notes
  | extended exchanged _ kept => exact exchanged.notes.kept kept

theorem Traded.notes {outcome : Except Stop Accessor} (h : Traded c s a q outcome p) :
    Notes c .accessToken q p := by
  cases h with
  | foreign => exact .nothing rfl rfl
  | unanswered unanswered => exact unanswered.notes
  | refused exchanged => exact exchanged.notes
  | traded exchanged _ kept => exact exchanged.notes.afterForgetting.kept kept

theorem Approved.notes {outcome : Except Stop Unit} (h : Approved c s a q outcome p) :
    Notes c .requestToken q p := by
  cases h with
  | foreign => exact .nothing rfl rfl
  | unanswered unanswered => exact unanswered.notes
  | refused exchanged => exact exchanged.notes
  | approved exchanged => exact .exchange exchanged.purpose exchanged.clock exchanged.sent

theorem Fetched.notes {outcome : Except Stop Response} (h : Fetched c s a q outcome p) :
    Notes c .resource q p := by
  cases h with
  | cached still => exact still.notes
  | unanswered unanswered => exact unanswered.notes
  | answered exchanged => exact exchanged.notes

theorem Discarded.notes (h : Discarded c q p) : Notes c purpose q p := by
  cases h with
  | stored => exact .nothing rfl rfl
  | carried => exact .nothing rfl rfl

/-- A move makes one exchange at most. -/
theorem Move.notes {g g' : Stage} (sound : SoundAt c s g q) (clean : c.request.checkCaller = .ok ())
    (move : c.Move g q g' p) : ∃ purpose, Notes c purpose q p := by
  cases move with
  | build | unbuilt | sign | keep | expire | use => exact ⟨.resource, .nothing rfl rfl⟩
  | extend ran | unextended ran | unreached ran =>
    exact ⟨_, (extended_of_run sound.2 sound.1 ran).notes⟩
  | forget ran => exact ⟨.resource, (discarded_of_run ran).notes⟩
  | approve kind unbound _ ran => exact ⟨_, (approved_of_run sound kind unbound ran).notes⟩
  | trade unsettled ran =>
    exact ⟨_, (traded_of_run sound (sound.2.delegated unsettled) ran).notes⟩
  | startOver unsettled ran | untraded unsettled ran =>
    exact ⟨_, (traded_of_run sound (sound.2.delegated unsettled) ran).notes.afterForgetting⟩
  | deliver ran | undelivered ran | outlive ran | reject ran | unfetched ran =>
    exact ⟨_, (fetched_of_run sound.2 clean sound.1 ran).notes⟩

/-- One request for a purpose is sent, signed with what the accessor is bound to; or none is. -/
inductive Sends (c : Call) (s : Surroundings) (a : Accessor) (purpose : Purpose) (q p : Progress) :
    Prop
  | nothing (sent : p.sent = q.sent)
  | one {x : Exchange} {g : Signing} (made : x.purpose = purpose) (bound : g.bound = a.token)
      (signed : g.Of c s q.sent x.purpose x.request) (sent : p.sent = q.sent ++ [x])

theorem Exchanged.sends {x : Exchange} (h : Exchanged c s a purpose q x p) :
    Sends c s a purpose q p := by
  obtain ⟨g, bound, signed⟩ := h.signed
  exact .one h.purpose bound signed h.sent

theorem Sends.same {p' : Progress} (h : Sends c s a purpose q p) (same : p'.sent = p.sent) :
    Sends c s a purpose q p' := by
  cases h with
  | nothing sent => exact .nothing (same.trans sent)
  | one made bound signed sent => exact .one made bound signed (same.trans sent)

theorem Unanswered.sends {stop : Stop} (h : Unanswered c s a purpose q stop p) :
    Sends c s a purpose q p := by
  cases h with
  | unsigned still => exact .nothing still.sent
  | unreached exchanged => exact exchanged.sends

theorem Extended.sends {handle : String} {outcome : Except Stop Accessor}
    (h : Extended c s a handle q outcome p) : Sends c s a .extension q p := by
  cases h with
  | unanswered unanswered => exact unanswered.sends
  | refused exchanged | unkept exchanged => exact exchanged.sends
  | extended exchanged _ kept => exact exchanged.sends.same kept.sent

theorem Traded.sends {outcome : Except Stop Accessor} (h : Traded c s a q outcome p) :
    Sends c s a .accessToken q p := by
  cases h with
  | foreign => exact .nothing rfl
  | unanswered unanswered => exact unanswered.sends
  | refused exchanged => exact exchanged.sends
  | traded exchanged _ kept => exact exchanged.sends.same kept.sent

theorem Approved.sends {outcome : Except Stop Unit} (h : Approved c s a q outcome p) :
    Sends c s a .requestToken q p := by
  cases h with
  | foreign => exact .nothing rfl
  | unanswered unanswered => exact unanswered.sends
  | refused exchanged => exact exchanged.sends
  | approved exchanged => exact exchanged.sends.same rfl

theorem Fetched.sends {outcome : Except Stop Response} (h : Fetched c s a q outcome p) :
    Sends c s a .resource q p := by
  cases h with
  | cached still => exact .nothing still.sent
  | unanswered unanswered => exact unanswered.sends
  | answered exchanged => exact exchanged.sends

/-- The time after some replies have come. -/
def clockAfter (c : Call) (s : Surroundings) : Nat → Clock
  | 0 => s.clock
  | n + 1 => (c.clockAfter s n).advance (c.replies n).delay

/-- While a call runs, time passes only as its exchanges take it. -/
theorem Reaches.clock {g : Stage} (h : Reaches c s g p) : p.clock = c.clockAfter s p.sent.length := by
  induction h with
  | unchecked => rfl
  | start => rfl
  | @move g g' q p before move ih =>
    obtain ⟨purpose, notes⟩ := move.notes before.sound (before.clean move)
    cases notes with
    | nothing clock sent => rw [clock, sent, ih]
    | exchange made clock sent =>
      rw [clock, sent, ih, List.length_append, List.length_singleton, clockAfter]

end Call
end DelegatedFetch
