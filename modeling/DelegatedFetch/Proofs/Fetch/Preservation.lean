import DelegatedFetch.Proofs.Fetch.Provenance

/-!
# Every part of a call keeps to known tokens

Each exchange is signed with what its accessor is bound to, and what a provider
grants is known as soon as the exchange is noted. So no part of a call brings a
token from elsewhere into the store, the state or a request.
-/

namespace DelegatedFetch.Call

open Step

variable {c : Call} {s : Surroundings} {a : Accessor}

/-- The two conditions that the parts of a call keep. -/
def Sound (c : Call) (s : Surroundings) (a : Accessor) (p : Progress) : Prop :=
  Invariant c s p ∧ Equipped c s a p.sent

theorem Sound.afterSend {p : Progress} {purpose : Purpose} {request : Request} (h : Sound c s a p)
    (signed : ∃ g : Signing, g.Of c s p.sent purpose request) :
    Sound c s a (c.afterSend purpose request p) :=
  ⟨Traced.send h.1 signed, h.2.mono fun _ => List.mem_append_left _⟩

/-- The names of extra parameters that calls sign. -/
def extraNames : List String :=
  [Parameter.callback, Parameter.verifier, Parameter.sessionHandle, Parameter.ownerId,
    Parameter.viewerId, Parameter.appId, Parameter.appUrl, Parameter.publicKeyFirst,
    Parameter.publicKeySecond]

theorem extraFit_of_names {extra : Pairs} (names : ∀ q ∈ extra, q.1 ∈ extraNames) :
    ExtraFit extra ∧ ∀ q ∈ extra, q.1 ≠ Parameter.token := by
  have each : ∀ name ∈ extraNames, name ≠ "" ∧ name ≠ Parameter.signature ∧
      name ≠ Parameter.bodyHash ∧ name ≠ Parameter.token := by decide
  constructor
  · intro q hq
    obtain ⟨named, notSignature, notHash, -⟩ := each _ (names q hq)
    exact ⟨named, notSignature, notHash⟩
  · intro q hq
    exact (each _ (names q hq)).2.2.2

theorem names_of_option {name : String} (mem : name ∈ extraNames) (value : Option String) :
    ∀ q ∈ (value.map fun v => (name, v)).toList, q.1 ∈ extraNames := by
  intro q hq
  cases value with
  | none => cases hq
  | some v => exact List.mem_singleton.1 hq ▸ mem

theorem names_of_identityPairs (a : Accessor) :
    ∀ q ∈ c.identityPairs a, q.1 ∈ extraNames := by
  intro q hq
  rw [identityPairs] at hq
  rw [List.mem_append, List.mem_append] at hq
  rcases hq with (hq | hq) | hq
  · exact names_of_option (by decide) _ q hq
  · exact names_of_option (by decide) _ q hq
  · split at hq
    · cases hq
    · rcases List.mem_append.1 hq with hq | hq
      · simp only [List.mem_cons, List.not_mem_nil, or_false] at hq
        rcases hq with rfl | rfl
        · exact (by decide : Parameter.appId ∈ extraNames)
        · exact (by decide : Parameter.appUrl ∈ extraNames)
      · split at hq
        · simp only [List.mem_cons, List.not_mem_nil, or_false] at hq
          rcases hq with rfl | rfl
          · exact (by decide : Parameter.publicKeyFirst ∈ extraNames)
          · exact (by decide : Parameter.publicKeySecond ∈ extraNames)
        · cases hq

theorem names_of_extraPairs (purpose : Purpose) (a : Accessor) :
    ∀ q ∈ c.extraPairs purpose a, q.1 ∈ extraNames := by
  cases purpose with
  | requestToken => exact names_of_option (by decide) _
  | accessToken => exact names_of_option (by decide) _
  | extension => exact names_of_option (by decide) _
  | resource => exact names_of_identityPairs a

/-- What an accessor signs is signed with what it is bound to. -/
theorem Equipped.signing {sent : List Exchange} {purpose : Purpose} {bare signed : Request}
    {placement : Placement} {stamp : Stamp} (h : Equipped c s a sent)
    (bareFor : c.bareRequest purpose = .ok bare)
    (placementFor : c.declaredPlacement purpose = .ok placement)
    (clean : purpose = .resource → bare.checkCaller = .ok () ∧ a.token.IsSettled)
    (fits : placement.fits bare = true)
    (made : bare.signWith a.credentials (c.extraPairs purpose a) placement stamp = .ok signed) :
    (Signing.mk a.consumer bare placement a.token (c.extraPairs purpose a) stamp).Of c s sent
      purpose signed := by
  obtain ⟨fit, foreign⟩ := extraFit_of_names (c.names_of_extraPairs purpose a)
  rw [← credentialsOf_token] at made
  exact ⟨h.consumer, bareFor, placementFor, fits, fun resource => (clean resource).1, h.token,
    fun resource => (clean resource).2, fit, foreign, ⟨a, h.coherent, rfl, rfl, rfl⟩, made⟩

/-- What is signed with a known token may be sent. -/
theorem sound_sign (purpose : Purpose) {bare : Request} {placement : Placement}
    (bareFor : c.bareRequest purpose = .ok bare)
    (placementFor : c.declaredPlacement purpose = .ok placement)
    (clean : purpose = .resource → bare.checkCaller = .ok () ∧ a.token.IsSettled) :
    Ensures (Sound c s a) (sign bare a.credentials (c.extraPairs purpose a) placement)
      (fun signed p => Sound c s a p ∧ ∃ g : Signing, g.Of c s p.sent purpose signed)
      fun _ => Sound c s a := by
  refine ensures_sign (fun p signed stamp entropy h fits made => ⟨h, ?_⟩) fun p _ _ h _ => h
  exact ⟨_, h.2.signing bareFor placementFor clean fits made⟩

theorem sound_send {purpose : Purpose} {request : Request} :
    Ensures (fun p => Sound c s a p ∧ ∃ g : Signing, g.Of c s p.sent purpose request)
      (c.send purpose request)
      (fun response p => Sound c s a p ∧
        ∃ e ∈ p.sent, e.purpose = purpose ∧ e.response = some response)
      fun _ => Sound c s a := by
  refine ensures_send (fun p response h outcome => ⟨h.1.afterSend h.2, ?_⟩)
    fun p _ h _ => h.1.afterSend h.2
  refine ⟨_, List.mem_append_right _ (List.mem_singleton.2 rfl), rfl, ?_⟩
  rw [outcome]
  rfl

/-- An exchange with an endpoint leaves its response among those that were noted. -/
theorem sound_exchange {purpose : Purpose} {endpoint : Endpoint}
    (bareFor : c.bareRequest purpose = .ok endpoint.bare)
    (placementFor : c.declaredPlacement purpose = .ok endpoint.placement)
    (ofToken : purpose ≠ .resource) :
    Ensures (Sound c s a) (c.exchange purpose endpoint a.credentials (c.extraPairs purpose a))
      (fun response p => Sound c s a p ∧
        ∃ e ∈ p.sent, e.purpose = purpose ∧ e.response = some response)
      fun _ => Sound c s a :=
  (sound_sign _ bareFor placementFor fun h => absurd h ofToken).bind fun _ => sound_send

/-- A reply of a token endpoint is the form in a response that tells success. -/
theorem tokenReply_eq_ok {response : Response} {endpoint : String} {reply : Pairs}
    (h : response.tokenReply endpoint = .ok reply) :
    response.isSuccess = true ∧ reply = Form.parse response.body := by
  rw [Response.tokenReply] at h
  split at h
  · cases h
  · split at h
    · rename_i success
      exact ⟨success, (Except.ok.inj h).symm⟩
    · split at h <;> cases h

theorem tokenPair_eq_ok {reply : Pairs} {endpoint token secret : String}
    (h : tokenPair reply endpoint = .ok (token, secret)) :
    reply.first? Parameter.token = some token ∧
      reply.first? Parameter.tokenSecret = some secret := by
  rw [tokenPair] at h
  split at h
  · rename_i found foundSecret
    split at h
    · cases h
    · cases h
      exact ⟨found, foundSecret⟩
  · cases h

theorem tokenInfo_eq_ok {reply : Pairs} {endpoint : String} {now : UInt64} {info : TokenInfo}
    (h : tokenInfo reply endpoint now = .ok info) :
    reply.first? Parameter.token = some info.token ∧
      reply.first? Parameter.tokenSecret = some info.secret := by
  rw [tokenInfo] at h
  cases pair : tokenPair reply endpoint with
  | error r =>
    rw [pair] at h
    cases h
  | ok found =>
    rw [pair] at h
    obtain rfl := Except.ok.inj h
    exact tokenPair_eq_ok pair

/-- A token in the reply to an exchange was granted by it. -/
theorem grants_of_reply {e : Exchange} {response : Response} {endpoint token secret : String}
    {reply : Pairs} (noted : e.response = some response)
    (answered : response.tokenReply endpoint = .ok reply)
    (first : reply.first? Parameter.token = some token)
    (second : reply.first? Parameter.tokenSecret = some secret) : e.Grants token secret := by
  obtain ⟨success, rfl⟩ := tokenReply_eq_ok answered
  exact ⟨response, noted, success, first, second⟩

/-- What an exchange was answered, as the exchanges that were noted have it. -/
def Answered (purpose : Purpose) (response : Response) (p : Progress) : Prop :=
  ∃ e ∈ p.sent, e.purpose = purpose ∧ e.response = some response

theorem known_of_answered_request {p : Progress} {response : Response} {endpoint token secret : String}
    {reply : Pairs} (h : Answered .requestToken response p)
    (answered : response.tokenReply endpoint = .ok reply)
    (pair : tokenPair reply endpoint = .ok (token, secret)) (source : TokenSource) :
    Known c s p.sent (.request token secret source) := by
  obtain ⟨e, mem, purpose, noted⟩ := h
  obtain ⟨first, second⟩ := tokenPair_eq_ok pair
  exact .grantedRequest mem purpose (grants_of_reply noted answered first second)

theorem known_of_answered_access {p : Progress} {purpose : Purpose} {response : Response}
    {endpoint : String} {reply : Pairs} {now : UInt64} {info info' : TokenInfo}
    (h : Answered purpose response p) (forAccess : purpose = .accessToken ∨ purpose = .extension)
    (answered : response.tokenReply endpoint = .ok reply)
    (read : tokenInfo reply endpoint now = .ok info) (same : info'.token = info.token)
    (sameSecret : info'.secret = info.secret) (source : TokenSource) :
    Known c s p.sent (.access info' source) := by
  obtain ⟨e, mem, rfl, noted⟩ := h
  obtain ⟨first, second⟩ := tokenInfo_eq_ok read
  have grants := grants_of_reply noted answered first second
  exact .grantedAccess mem forAccess (by rw [same, sameSecret]; exact grants)

theorem sound_requestApproval (kind : c.args.kind = .delegated) (unbound : a.token = .none) :
    Ensures (Sound c s a) (c.requestApproval a) (fun _ => Invariant c s) fun _ => Invariant c s := by
  rw [requestApproval]
  dsimp only
  split
  case isFalse => exact ensures_throw_bind fun _ h => h.1
  apply ensures_ofExcept_bind (fun _ _ _ h => h.1)
  intro provider declared
  refine Ensures.bind (R := fun response p => Sound c s a p ∧ Answered .requestToken response p)
    ?_ fun response => ?_
  · intro p h
    obtain ⟨provider', declared', method, placement⟩ := h.2.declared kind
    obtain rfl := Except.ok.inj (declared.symm.trans declared')
    have bareFor : c.bareRequest .requestToken =
        .ok (Endpoint.bare ⟨provider.request.url, a.method, a.placement⟩) := by
      simp only [bareRequest, declared, method]
      rfl
    have placementFor : c.declaredPlacement .requestToken = .ok a.placement := by
      simp only [declaredPlacement, kind, declared, placement]
      rfl
    have credentials : a.consumer.credentials = a.credentials := by
      rw [Accessor.credentials_eq, unbound]
      rfl
    rw [credentials]
    exact ((sound_exchange bareFor placementFor (by decide)).weaken (fun _ h => h) (fun _ _ h => h)
      fun _ _ h => h.1) p h
  apply ensures_ofExcept_bind (fun _ _ _ h => h.1.1)
  intro reply answered
  apply ensures_ofExcept_bind (fun _ _ _ h => h.1.1)
  intro pair read
  refine Ensures.bind (R := fun _ => Invariant c s) (ensures_modifyState fun p h => ?_)
    fun _ => ensures_modify fun p h => h
  exact Traced.setRequestToken h.1.1 (known_of_answered_request h.2 answered read _)

/-- What an exchange with the access endpoint is signed from. -/
theorem access_declared {provider : Provider} {purpose : Purpose}
    (forAccess : purpose = .accessToken ∨ purpose = .extension) (kind : c.args.kind = .delegated)
    (declared : c.services.provider c.args.service = .ok provider) :
    c.bareRequest purpose = .ok provider.access.bare ∧
      c.declaredPlacement purpose = .ok provider.access.placement := by
  rcases forAccess with rfl | rfl <;> simp only [bareRequest, declaredPlacement, kind, declared] <;>
    exact ⟨rfl, rfl⟩

/-- An exchange with the access endpoint, signed with what is bound. -/
theorem sound_access {provider : Provider} {purpose : Purpose}
    (forAccess : purpose = .accessToken ∨ purpose = .extension) (kind : c.args.kind = .delegated)
    (declared : c.services.provider c.args.service = .ok provider) :
    Ensures (Sound c s a)
      (c.exchange purpose provider.access a.credentials (c.extraPairs purpose a))
      (fun response p => Sound c s a p ∧ Answered purpose response p) fun _ => Sound c s a := by
  obtain ⟨bareFor, placementFor⟩ := access_declared forAccess kind declared
  refine sound_exchange bareFor placementFor ?_
  rintro rfl
  rcases forAccess with h | h <;> cases h

/-- A token that was granted is kept, and bound in place of the one before. -/
theorem sound_persist {info : TokenInfo} {R : Progress → Prop} (kind : c.args.kind = .delegated)
    (known : ∀ p, R p → ∀ source, Known c s p.sent (.access info source)) :
    Ensures (fun p => Sound c s a p ∧ R p)
      (do return a.setAccessToken info (← c.persist info))
      (fun b p => b.token.IsSettled ∧ Sound c s b p) fun _ => Sound c s a := by
  refine Ensures.bind (R := fun source p => Sound c s (a.setAccessToken info source) p)
    (ensures_persist (fun p p' source h kept => ?_) fun _ _ h _ _ => h.1)
    fun source => ensures_pure fun p h => ⟨BoundToken.isSettled_access info source, h⟩
  have granted := known p h.2
  refine ⟨Traced.kept h.1.1 granted kept, ?_⟩
  rw [kept.sent]
  exact h.1.2.setAccessToken (granted source) kind kept.source_ne_none

theorem sound_exchangeRequestToken (kind : c.args.kind = .delegated) :
    Ensures (Sound c s a) (c.exchangeRequestToken a)
      (fun b p => b.token.IsSettled ∧ Sound c s b p) fun _ => Invariant c s := by
  rw [exchangeRequestToken]
  dsimp only
  split
  case isFalse => exact ensures_throw_bind fun _ h => h.1
  apply ensures_ofExcept_bind (fun _ _ _ h => h.1)
  intro provider declared
  apply ((sound_access (.inl rfl) kind declared).weaken (fun _ h => h) (fun _ _ h => h)
    fun _ _ h => h.1).bind
  intro response
  apply ensures_ofExcept_bind (fun _ _ _ h => h.1.1)
  intro reply answered
  apply Ensures.bind (ensures_now (Q := fun _ p =>
    Sound c s a p ∧ Answered .accessToken response p) fun _ h => h)
  intro now
  apply ensures_ofExcept_bind (fun _ _ _ h => h.1.1)
  intro info read
  apply Ensures.bind (ensures_forgetRequestToken (Q := fun _ p =>
    Sound c s a p ∧ Answered .accessToken response p)
    fun p h => ⟨⟨Traced.clearRequestToken h.1.1, h.1.2⟩, h.2⟩)
  intro _
  exact (sound_persist kind fun p h source =>
    known_of_answered_access h (.inl rfl) answered read rfl rfl source).weaken
    (fun _ h => h) (fun _ _ h => h) fun _ _ h => h.1

/-- Sessions are those of access tokens, which only delegated fetches bind. -/
theorem delegated_of_sessionHandle {sent : List Exchange} {handle : String}
    (h : Equipped c s a sent) (held : a.sessionHandle? = some handle) :
    c.args.kind = .delegated := by
  cases kind : c.args.kind with
  | delegated => rfl
  | signed =>
    obtain ⟨info, source, access, -⟩ := h.coherent.access held
    cases (h.alone kind).1.symm.trans access

theorem sound_extendSession {handle : String} (held : a.sessionHandle? = some handle) :
    Ensures (Sound c s a) (c.extendSession a handle) (fun b => Sound c s b)
      fun _ => Sound c s a := by
  refine Ensures.of_imp (P := fun p => c.args.kind = .delegated ∧ Sound c s a p)
    (Ensures.of_fact fun kind => ?_) fun p h => ⟨delegated_of_sessionHandle h.2 held, h⟩
  rw [extendSession]
  apply ensures_ofExcept_bind (fun _ _ _ h => h)
  intro provider declared
  have extra : [(Parameter.sessionHandle, handle)] = c.extraPairs .extension a := by
    simp only [extraPairs, held, Option.map_some, Option.toList_some]
  rw [extra]
  apply (sound_access (.inr rfl) kind declared).bind
  intro response
  apply ensures_ofExcept_bind (fun _ _ _ h => h.1)
  intro reply answered
  apply Ensures.bind (ensures_now (Q := fun _ p =>
    Sound c s a p ∧ Answered .extension response p) fun _ h => h)
  intro now
  apply ensures_ofExcept_bind (fun _ _ _ h => h.1)
  intro info read
  refine Ensures.weaken (sound_persist kind fun p h source => ?_) (fun _ h => h)
    (fun _ _ h => h.2) fun _ _ h => h
  exact known_of_answered_access h (.inr rfl) answered read (by rfl) (by rfl) source

theorem sound_discardToken :
    Ensures (Sound c s a) c.discardToken (fun _ => Sound c s a.clearToken)
      fun _ => Invariant c s := by
  refine ensures_discardToken fun p p' h discarded => ⟨Traced.discarded h.1 discarded, ?_⟩
  rw [discarded.sent]
  exact h.2.clearToken

/-- The resource is signed for the placement of the accessor. -/
theorem Equipped.placement_resource {sent : List Exchange} (h : Equipped c s a sent) :
    c.declaredPlacement .resource = .ok a.placement := by
  cases kind : c.args.kind with
  | signed =>
    simp only [declaredPlacement, kind, (h.alone kind).2]
  | delegated =>
    obtain ⟨provider, declared, -, placement⟩ := h.declared kind
    simp only [declaredPlacement, kind, declared, placement]
    rfl

theorem sound_fetchResource (clean : c.request.checkCaller = .ok ()) (settled : a.token.IsSettled) :
    Ensures (Sound c s a) (c.fetchResource a) (fun _ => Sound c s a) fun _ => Invariant c s := by
  rw [fetchResource]
  apply ensures_get_bind
  intro q hq
  refine Ensures.bind (R := fun _ => Sound c s a) (ensures_cached? fun p cache hit hp _ => ?_)
    fun hit => ?_
  · exact hp ▸ hq
  cases hit with
  | some hit => exact ensures_pure fun _ h => h
  | none =>
    apply ((sound_sign .resource rfl hq.2.placement_resource
      fun _ => ⟨clean, settled⟩).weaken (fun _ h => h) (fun _ _ h => h) fun _ _ h => h.1).bind
    intro signed
    apply Ensures.bind (R := fun _ => Sound c s a)
      (sound_send.weaken (fun _ h => h) (fun _ _ h => h.1) fun _ _ h => h.1)
    intro response
    exact Ensures.bind (R := fun _ => Sound c s a) (ensures_keep fun _ _ h _ => h)
      fun _ => ensures_pure fun _ h => h

/-- What holds of a call that has passed its checks, at each stage. -/
def SoundAt (c : Call) (s : Surroundings) : Stage → Progress → Prop
  | .attempting _, p => Invariant c s p
  | .built _ a, p | .choosing _ a, p | .forgetting _ a, p => Sound c s a p
  | .delivering _ a, p => a.token.IsSettled ∧ Sound c s a p
  | .extending _ a handle, p => a.sessionHandle? = some handle ∧ Sound c s a p
  | .ended _, p => Invariant c s p

variable {g g' : Stage} {p q : Progress}

theorem Sound.mended (h : Sound c s a p) (rejected : Bool) : SoundAt c s (.mended rejected a) p := by
  cases rejected with
  | true => exact h.1
  | false => exact h

/-- Only a delegated fetch binds a request token. -/
theorem Equipped.delegated {sent : List Exchange} (h : Equipped c s a sent)
    (unsettled : ¬ a.token.IsSettled) : c.args.kind = .delegated := by
  cases kind : c.args.kind with
  | delegated => rfl
  | signed => exact absurd ((h.alone kind).1 ▸ BoundToken.isSettled_none) unsettled

/-- Every move keeps to known tokens. -/
theorem SoundAt.move (clean : c.request.checkCaller = .ok ()) (h : SoundAt c s g q)
    (move : c.Move g q g' p) : SoundAt c s g' p := by
  cases move with
  | build built => exact ⟨h, equipped_of_build h built⟩
  | unbuilt | keep => exact h
  | sign kind => exact ⟨(h.2.alone kind).1 ▸ BoundToken.isSettled_none, h⟩
  | expire _ held => exact ⟨held, h⟩
  | use settled => exact ⟨settled, h⟩
  | extend ran => exact Sound.mended ((sound_extendSession h.1).answer h.2 ran) _
  | unextended ran => exact (sound_extendSession h.1).stop h.2 ran
  | unreached ran => exact ((sound_extendSession h.1).stop h.2 ran).1
  | forget ran => exact Sound.mended (sound_discardToken.answer h ran) _
  | @approve _ _ _ _ outcome kind unbound _ ran =>
    cases outcome with
    | ok => exact (sound_requestApproval kind unbound).answer h ran
    | error => exact (sound_requestApproval kind unbound).stop h ran
  | trade unsettled ran =>
    exact (sound_exchangeRequestToken (h.2.delegated unsettled)).answer h ran
  | startOver unsettled ran | untraded unsettled ran =>
    exact Traced.clearRequestToken
      ((sound_exchangeRequestToken (h.2.delegated unsettled)).stop h ran)
  | deliver ran | undelivered ran => exact ((sound_fetchResource clean h.1).answer h.2 ran).1
  | outlive ran _ _ _ held => exact ⟨held, (sound_fetchResource clean h.1).answer h.2 ran⟩
  | reject ran => exact (sound_fetchResource clean h.1).answer h.2 ran
  | unfetched ran => exact (sound_fetchResource clean h.1).stop h.2 ran

/-- Only a call whose request has passed the check makes moves. -/
theorem Reaches.clean (h : Reaches c s g q) (move : c.Move g q g' p) :
    c.request.checkCaller = .ok () := by
  induction h generalizing g' p with
  | unchecked => cases move
  | start clean => exact clean
  | move before earlier ih => exact ih earlier

theorem Reaches.sound (h : Reaches c s g p) : SoundAt c s g p := by
  induction h with
  | unchecked => exact invariant_begun
  | start => exact invariant_begun
  | move before move ih => exact ih.move (before.clean move) move

/-- At the end of a call, what it keeps is known, and all that it sent was signed with what was
known. -/
theorem invariant_fetch (c : Call) (s : Surroundings) : Invariant c s (c.fetch s).2 :=
  fetch_of_reaches (fun _ _ h => h) fun _ _ reached => reached.sound

end DelegatedFetch.Call
