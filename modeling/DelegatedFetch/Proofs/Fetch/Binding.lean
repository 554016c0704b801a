import DelegatedFetch.Fetch.Accessor

/-!
# Which token an accessor is bound to

The sources of a bound token, their order of precedence, and what an accessor
that was built tells about the consumer, the service and the token. A stored or
carried token is bound only when the caller names no request token.
-/

namespace DelegatedFetch.Accessor

variable {store : Store} {args args' : FetchArguments} {t t' : SecurityToken} {services : Services}
  {state state' : ClientState} {x y : BoundToken} {a : Accessor}

/-- A token is stored for a viewer. -/
theorem viewer_isSome_of_stored {service tokenName : String} {info : TokenInfo}
    (held : store.token? t service tokenName = .ok (some info)) : t.viewer.isSome = true := by
  obtain ⟨key, own, -⟩ := Store.token?_eq_ok held
  rw [← TokenKey.viewer_of own]
  rfl

/-- Where a bound token can come from. -/
inductive Binds (store : Store) (args : FetchArguments) (t : SecurityToken) (state : ClientState) :
    BoundToken → Prop
  | none : Binds store args t state .none
  | argument {token : String} (named : args.requestToken = some token) :
      Binds store args t state (.request token (args.requestTokenSecret.getD "") .arguments)
  | stored {info : TokenInfo} (unnamed : args.requestToken = .none)
      (held : store.token? t args.service args.tokenName = .ok (some info)) :
      Binds store args t state (.access info .store)
  | carriedAccess {info : TokenInfo} (unnamed : args.requestToken = .none)
      (held : state.accessInfo? = some info) : Binds store args t state (.access info .clientState)
  | carriedRequest {token : String} (unnamed : args.requestToken = .none)
      (held : state.requestToken = some token) :
      Binds store args t state (.request token (state.requestTokenSecret.getD "") .clientState)

theorem binds_carriedToken (unnamed : args.requestToken = none) :
    Binds store args t state (carriedToken state) := by
  rw [carriedToken]
  split
  · rename_i held
    exact .carriedAccess unnamed held
  · rename_i held
    exact .carriedRequest unnamed held
  · exact .none

/-- Which token is bound, if one is wanted: a request token among the arguments, or else the stored
token, or else what the state carries. -/
inductive Chosen (store : Store) (args : FetchArguments) (t : SecurityToken)
    (state : ClientState) : BoundToken → Prop
  | unwanted (never : args.tokenUse = .never) : Chosen store args t state .none
  | argument {token : String} (wanted : args.tokenUse ≠ .never)
      (named : args.requestToken = some token) :
      Chosen store args t state (.request token (args.requestTokenSecret.getD "") .arguments)
  | stored {info : TokenInfo} (wanted : args.tokenUse ≠ .never)
      (unnamed : args.requestToken = .none)
      (held : store.token? t args.service args.tokenName = .ok (some info)) :
      Chosen store args t state (.access info .store)
  | carried (wanted : args.tokenUse ≠ .never) (unnamed : args.requestToken = .none)
      (missing : ∀ info, store.token? t args.service args.tokenName ≠ .ok (some info)) :
      Chosen store args t state (carriedToken state)

theorem Chosen.binds {b : BoundToken} (h : Chosen store args t state b) :
    Binds store args t state b := by
  cases h with
  | unwanted => exact .none
  | argument _ named => exact .argument named
  | stored _ unnamed held => exact .stored unnamed held
  | carried _ unnamed => exact binds_carriedToken unnamed

theorem Chosen.of_never (h : Chosen store args t state x) (never : args.tokenUse = .never) :
    x = .none := by
  cases h with
  | unwanted => rfl
  | argument wanted | stored wanted | carried wanted => exact absurd never wanted

theorem Chosen.of_named {token : String} (h : Chosen store args t state x)
    (wanted : args.tokenUse ≠ .never) (named : args.requestToken = some token) :
    x = .request token (args.requestTokenSecret.getD "") .arguments := by
  cases h with
  | unwanted never => exact absurd never wanted
  | argument _ named' => rw [Option.some.inj (named.symm.trans named')]
  | stored _ unnamed | carried _ unnamed =>
    rw [unnamed] at named
    cases named

/-- Without a request token among the arguments, a token that is wanted is the stored one or, if
none is stored, the carried one. -/
theorem Chosen.of_unnamed (h : Chosen store args t state x) (wanted : args.tokenUse ≠ .never)
    (unnamed : args.requestToken = none) :
    (∃ info, x = .access info .store ∧
      store.token? t args.service args.tokenName = .ok (some info)) ∨
    x = carriedToken state ∧
      ∀ info, store.token? t args.service args.tokenName ≠ .ok (some info) := by
  cases h with
  | unwanted never => exact absurd never wanted
  | argument _ named =>
    rw [unnamed] at named
    cases named
  | stored _ _ held => exact .inl ⟨_, rfl, held⟩
  | carried _ _ missing => exact .inr ⟨rfl, missing⟩

/-- The same token is chosen twice if arguments and states offer the same one, and if the same one
is stored for both wherever a stored one is chosen. -/
theorem Chosen.unique (h : Chosen store args t state x) (h' : Chosen store args' t' state' y)
    (tokenUse : args.tokenUse = args'.tokenUse)
    (requestToken : args.requestToken = args'.requestToken)
    (secret : args.requestTokenSecret = args'.requestTokenSecret)
    (carried : carriedToken state = carriedToken state')
    (stored : ∀ info,
      x = .access info .store ∧ store.token? t args.service args.tokenName = .ok (some info) ∨
        y = .access info .store ∧
          store.token? t' args'.service args'.tokenName = .ok (some info) →
      store.token? t args.service args.tokenName =
        store.token? t' args'.service args'.tokenName) : x = y := by
  by_cases never : args.tokenUse = .never
  · rw [h.of_never never, h'.of_never (tokenUse ▸ never)]
  have wanted' : args'.tokenUse ≠ .never := tokenUse ▸ never
  cases named : args'.requestToken with
  | some token =>
    rw [h.of_named never (requestToken.trans named), h'.of_named wanted' named, secret]
  | none =>
    rcases h.of_unnamed never (requestToken.trans named) with
      ⟨info, rfl, held⟩ | ⟨rfl, missing⟩
    · rcases h'.of_unnamed wanted' named with ⟨info', rfl, held'⟩ | ⟨rfl, missing'⟩
      · rw [stored info (.inl ⟨rfl, held⟩), held'] at held
        rw [Option.some.inj (Except.ok.inj held)]
      · rw [stored info (.inl ⟨rfl, held⟩)] at held
        exact absurd held (missing' info)
    · rcases h'.of_unnamed wanted' named with ⟨info', rfl, held'⟩ | ⟨rfl, missing'⟩
      · rw [← stored info' (.inr ⟨rfl, held'⟩)] at held'
        exact absurd held' (missing info')
      · exact carried

theorem chosen_delegatedToken {b : BoundToken} (h : delegatedToken store args t state = .ok b) :
    Chosen store args t state b := by
  rw [delegatedToken] at h
  split at h
  · rename_i never
    obtain rfl := Except.ok.inj h
    exact .unwanted never
  rename_i wanted
  cases named : args.requestToken with
  | some token =>
    simp only [named] at h
    obtain rfl := Except.ok.inj h
    exact .argument wanted named
  | none =>
    simp only [named] at h
    split at h
    · cases looked : store.token? t args.service args.tokenName with
      | error r =>
        rw [looked] at h
        cases h
      | ok found =>
        rw [looked] at h
        cases found with
        | none =>
          obtain rfl := Except.ok.inj h
          exact .carried wanted named fun info held => by rw [looked] at held; cases held
        | some info =>
          obtain rfl := Except.ok.inj h
          exact .stored wanted named looked
    · rename_i stranger
      obtain rfl := Except.ok.inj h
      exact .carried wanted named fun info held => stranger (viewer_isSome_of_stored held)

/-- A signed fetch binds no token to the gadget's consumer. -/
theorem build_signed_eq (kind : args.kind = .signed)
    (h : build store args t services state = .ok a) :
    ∃ consumer, store.consumer t "" none = .ok consumer ∧ a = consumerOnly consumer .get .uriQuery := by
  rw [build] at h
  simp only [kind] at h
  cases found : store.consumer t "" none with
  | error r =>
    rw [found] at h
    cases h
  | ok consumer =>
    rw [found] at h
    exact ⟨consumer, rfl, (Except.ok.inj h).symm⟩

/-- A delegated fetch binds a token to the consumer for a declared service. -/
theorem build_delegated_eq (kind : args.kind = .delegated)
    (h : build store args t services state = .ok a) :
    ∃ provider consumer token, services.provider args.service = .ok provider ∧
      store.consumer t args.service (some provider) = .ok consumer ∧
      Chosen store args t state token ∧
      a = (consumerOnly consumer provider.request.method provider.request.placement).setToken
        token := by
  rw [build] at h
  simp only [kind] at h
  cases declared : services.provider args.service with
  | error r =>
    rw [declared] at h
    cases h
  | ok provider =>
    rw [declared] at h
    cases found : store.consumer t args.service (some provider) with
    | error r =>
      simp only [bind, Except.bind, found] at h
      cases h
    | ok consumer =>
      cases bound : delegatedToken store args t state with
      | error r =>
        simp only [bind, Except.bind, found, bound] at h
        cases h
      | ok token =>
        simp only [bind, Except.bind, found, bound] at h
        exact ⟨provider, consumer, token, rfl, found, chosen_delegatedToken bound,
          (Except.ok.inj h).symm⟩

/-- The accessor of a signed fetch is the gadget's consumer, without a token. -/
theorem build_signed (kind : args.kind = .signed)
    (h : build store args t services state = .ok a) :
    store.consumer t "" none = .ok a.consumer ∧ a.token = .none ∧ a.placement = .uriQuery := by
  obtain ⟨consumer, found, rfl⟩ := build_signed_eq kind h
  exact ⟨found, rfl, rfl⟩

/-- The accessor of a delegated fetch is the consumer for a declared service. -/
theorem build_delegated (kind : args.kind = .delegated)
    (h : build store args t services state = .ok a) :
    ∃ provider, services.provider args.service = .ok provider ∧
      store.consumer t args.service (some provider) = .ok a.consumer ∧
      a.method = provider.request.method ∧ a.placement = provider.request.placement ∧
      Chosen store args t state a.token := by
  obtain ⟨provider, consumer, token, declared, found, chosen, rfl⟩ := build_delegated_eq kind h
  rw [consumer_setToken, method_setToken, placement_setToken, token_setToken]
  exact ⟨provider, declared, found, rfl, rfl, chosen⟩

/-- What an accessor tells is told of one token or of none: it comes from somewhere exactly if there
is one, a session is that of an access token, and a token has a secret. -/
structure Coherent (a : Accessor) : Prop where
  source : a.source = .none ↔ a.held = .none
  sessionHandle : a.sessionHandle?.isSome = true → a.hasAccessToken = true
  expires : a.expires?.isSome = true → a.hasAccessToken = true
  secret : a.credentials.token.isSome = a.credentials.tokenSecret.isSome

theorem coherent_consumerOnly (consumer : Consumer) (method : Method) (placement : Placement) :
    (consumerOnly consumer method placement).Coherent := by
  constructor <;> simp [consumerOnly, credentials, HeldToken.token?, HeldToken.secret?]

/-- Whatever an accessor told before, nothing of it is left when a token is bound. -/
theorem coherent_setAccessToken (a : Accessor) (info : TokenInfo) {source : TokenSource}
    (known : source ≠ .none) : (a.setAccessToken info source).Coherent := by
  constructor <;> simp [setAccessToken, known, hasAccessToken, HeldToken.isAccess, credentials,
    HeldToken.token?, HeldToken.secret?]

theorem coherent_setRequestToken (a : Accessor) (token secret : String) {source : TokenSource}
    (known : source ≠ .none) : (a.setRequestToken token secret source).Coherent := by
  constructor <;> simp [setRequestToken, known, credentials, HeldToken.token?, HeldToken.secret?]

theorem coherent_clearToken (a : Accessor) : a.clearToken.Coherent := by
  constructor <;> simp [clearToken, credentials, HeldToken.token?, HeldToken.secret?]

theorem coherent_setToken (a : Accessor) (sourced : x.source = .none → x = .none) :
    (a.setToken x).Coherent := by
  cases x with
  | none => exact a.coherent_clearToken
  | request token secret source =>
    exact a.coherent_setRequestToken _ _ fun nowhere => nomatch sourced nowhere
  | access info source => exact a.coherent_setAccessToken _ fun nowhere => nomatch sourced nowhere

/-- A token that is bound comes from somewhere. -/
theorem Binds.sourced (h : Binds store args t state x) : x.source = .none → x = .none := by
  cases h with
  | none => exact fun _ => rfl
  | _ => exact nofun

theorem coherent_build (h : build store args t services state = .ok a) : a.Coherent := by
  cases kind : args.kind with
  | signed =>
    obtain ⟨consumer, -, rfl⟩ := build_signed_eq kind h
    exact coherent_consumerOnly _ _ _
  | delegated =>
    obtain ⟨provider, consumer, token, -, -, chosen, rfl⟩ := build_delegated_eq kind h
    exact coherent_setToken _ chosen.binds.sourced

/-- A session is that of the token that is bound. -/
theorem Coherent.sessionHandle?_eq (h : a.Coherent) :
    a.sessionHandle? = a.token.accessInfo?.bind (·.sessionHandle) := by
  have unheld (other : a.hasAccessToken = false) : a.sessionHandle? = none := by
    cases held : a.sessionHandle? with
    | none => rfl
    | some handle => cases other.symm.trans (h.sessionHandle (by rw [held]; rfl))
  rw [hasAccessToken] at unheld
  rw [token]
  cases held : a.held with
  | access => rfl
  | _ => exact unheld (by rw [held]; rfl)

/-- Without a token, nothing is left to clear. -/
theorem Coherent.clearToken_eq (h : a.Coherent) (unbound : a.token = .none) : a.clearToken = a := by
  obtain ⟨consumer, held, source, handle, expires, method, placement⟩ := a
  obtain rfl : held = .none := by
    cases held with
    | none => rfl
    | _ => cases unbound
  obtain rfl : source = .none := h.source.2 rfl
  obtain rfl : handle = none := by
    cases handle with
    | none => rfl
    | some handle => cases h.sessionHandle rfl
  obtain rfl : expires = none := by
    cases expires with
    | none => rfl
    | some time => cases h.expires rfl
  rfl

/-- A handle belongs to an access token. -/
theorem Coherent.access (h : a.Coherent) {handle : String} (held : a.sessionHandle? = some handle) :
    ∃ info source, a.token = .access info source ∧ info.sessionHandle = some handle := by
  rw [h.sessionHandle?_eq] at held
  cases bound : a.token with
  | access info source =>
    rw [bound] at held
    exact ⟨info, source, rfl, held⟩
  | _ =>
    rw [bound] at held
    cases held

end DelegatedFetch.Accessor
