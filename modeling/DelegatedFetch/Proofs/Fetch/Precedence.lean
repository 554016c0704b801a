import DelegatedFetch.Proofs.Fetch.Sent

/-!
# What an accessor is bound to

A build asks its store for two things only, a consumer and the viewer's token,
so the precedence of tokens is stated over any store that answers these. The
token, its secret, where it comes from and the data of its session stand side
by side in an accessor. A build takes all of them from the first origin that
offers a token, and each change that is made later replaces all of them: nothing
is left of what was bound before.
-/

namespace DelegatedFetch

/-- What is answered after another answer. -/
theorem bind_eq_ok_iff {ε α β : Type} {x : Except ε α} {f : α → Except ε β} {b : β} :
    x >>= f = .ok b ↔ ∃ a, x = .ok a ∧ f a = .ok b := by
  cases x with
  | error e => exact ⟨nofun, fun ⟨_, same, _⟩ => nomatch same⟩
  | ok a =>
    refine ⟨fun answered => ⟨a, rfl, answered⟩, ?_⟩
    rintro ⟨a', same, answered⟩
    rw [← Except.ok.inj same] at answered
    exact answered

/-- What a build asks of a store. -/
structure StoreView where
  consumer : SecurityToken → String → Option Provider → Except Refusal Consumer
  token? : SecurityToken → Consumer → String → String → Except Refusal (Option TokenInfo)

/-- The store as a build sees it: a stored token is not looked up by its consumer. -/
def Store.view (s : Store) : StoreView where
  consumer := s.consumer
  token? t _ service tokenName := s.token? t service tokenName

/-- What is told about the token of an accessor. -/
structure Binding where
  isAccess : Bool := false
  token : Option String := none
  secret : Option String := none
  source : TokenSource := .none
  sessionHandle : Option String := none
  expires : Option UInt64 := none
  deriving DecidableEq, Repr

namespace Binding

def ofAccess (info : TokenInfo) (source : TokenSource) : Binding where
  isAccess := true
  token := info.token
  secret := info.secret
  source := source
  sessionHandle := info.sessionHandle
  expires := info.expires

def ofRequest (token : String) (secret : Option String) (source : TokenSource) : Binding where
  token := token
  secret := secret.getD ""
  source := source

end Binding

/-- The binding that a token makes. -/
def BoundToken.binding : BoundToken → Binding
  | .none => {}
  | .request token secret source => .ofRequest token secret source
  | .access info source => .ofAccess info source

/-- Where a token can come from, or why there is none. -/
inductive Origin where
  | unwanted
  | argument
  | stored
  | carriedAccess
  | carriedRequest
  | absent
  deriving DecidableEq, Repr

namespace Origin

/-- The origins in the order in which a build looks at them. -/
def order : List Origin :=
  [unwanted, argument, stored, carriedAccess, carriedRequest, absent]

/-- What an origin offers to a consumer's accessor, if it applies. An access token that is carried
without its secret, or a secret without its token, is no offer. -/
def offer? (view : StoreView) (args : FetchArguments) (t : SecurityToken) (state : ClientState)
    (consumer : Consumer) : Origin → Option Binding
  | unwanted => if args.kind = .signed ∨ args.tokenUse = .never then some {} else none
  | argument => args.requestToken.map fun token =>
      .ofRequest token args.requestTokenSecret .arguments
  | stored =>
    if t.viewer.isSome then
      (view.token? t consumer args.service args.tokenName).toOption.join.map fun info =>
        .ofAccess info .store
    else none
  | carriedAccess =>
    match state.accessToken, state.accessTokenSecret with
    | some token, some secret =>
      some (.ofAccess ⟨token, secret, state.sessionHandle, state.expires⟩ .clientState)
    | _, _ => none
  | carriedRequest => state.requestToken.map fun token =>
      .ofRequest token state.requestTokenSecret .clientState
  | absent => some {}

/-- The offer of the first origin that applies. -/
def first? (view : StoreView) (args : FetchArguments) (t : SecurityToken) (state : ClientState)
    (consumer : Consumer) : Option Binding :=
  order.findSome? (offer? view args t state consumer)

end Origin

namespace Accessor

/-- The token of a delegated fetch, by any store. -/
def tokenFrom (view : StoreView) (args : FetchArguments) (t : SecurityToken) (state : ClientState)
    (consumer : Consumer) : Except Refusal BoundToken := do
  if args.tokenUse = .never then return .none
  if let some token := args.requestToken then
    return .request token (args.requestTokenSecret.getD "") .arguments
  if t.viewer.isSome then
    if let some info ← view.token? t consumer args.service args.tokenName then
      return .access info .store
  return carriedToken state

/-- The accessor of a fetch, by any store. -/
def buildFrom (view : StoreView) (args : FetchArguments) (t : SecurityToken) (services : Services)
    (state : ClientState) : Except Refusal Accessor := do
  match args.kind with
  | .signed =>
    return consumerOnly (← view.consumer t "" none) .get .uriQuery
  | .delegated =>
    let provider ← services.provider args.service
    let consumer ← view.consumer t args.service (some provider)
    let token ← tokenFrom view args t state consumer
    return (consumerOnly consumer provider.request.method provider.request.placement).setToken token

theorem build_eq_buildFrom (store : Store) (args : FetchArguments) (t : SecurityToken)
    (services : Services) (state : ClientState) :
    build store args t services state = buildFrom store.view args t services state := rfl

/-- What an accessor tells about its token. -/
def binding (a : Accessor) : Binding where
  isAccess := a.hasAccessToken
  token := a.credentials.token
  secret := a.credentials.tokenSecret
  source := a.source
  sessionHandle := a.sessionHandle?
  expires := a.expires?

/-- A token that is bound takes the place of the whole record. -/
theorem binding_setToken (a : Accessor) (b : BoundToken) : (a.setToken b).binding = b.binding := by
  cases b <;> rfl

variable {view : StoreView} {args : FetchArguments} {t : SecurityToken} {services : Services}
  {state : ClientState} {consumer : Consumer} {a : Accessor}

/-- The access token that a state carries is offered if both its halves are there. -/
theorem offer?_carriedAccess : Origin.carriedAccess.offer? view args t state consumer =
    state.accessInfo?.map fun info => .ofAccess info .clientState := by
  rw [Origin.offer?, ClientState.accessInfo?]
  cases state.accessToken <;> cases state.accessTokenSecret <;> rfl

/-- What the state carries is the first of its own offers. -/
theorem first_carriedToken : [.carriedAccess, .carriedRequest, .absent].findSome?
    (Origin.offer? view args t state consumer) = some (carriedToken state).binding := by
  rw [carriedToken, List.findSome?_cons, offer?_carriedAccess]
  cases state.accessInfo? with
  | some info => rfl
  | none =>
    rw [Option.map_none, List.findSome?_cons, Origin.offer?]
    cases state.requestToken <;> rfl

/-- A delegated fetch binds what the first origin that applies offers. -/
theorem first_tokenFrom {b : BoundToken} (kind : args.kind = .delegated)
    (h : tokenFrom view args t state consumer = .ok b) :
    Origin.first? view args t state consumer = some b.binding := by
  rw [tokenFrom] at h
  rw [Origin.first?, Origin.order, List.findSome?_cons, Origin.offer?]
  split at h
  · rename_i never
    obtain rfl := Except.ok.inj h
    rw [if_pos (.inr never)]
    rfl
  rename_i wanted
  rw [if_neg (by simp [kind, wanted]), List.findSome?_cons, Origin.offer?]
  cases named : args.requestToken with
  | some token =>
    simp only [named] at h
    obtain rfl := Except.ok.inj h
    rfl
  | none =>
    simp only [named] at h
    rw [Option.map_none, List.findSome?_cons, Origin.offer?]
    cases known : t.viewer with
    | none =>
      simp only [known] at h
      obtain rfl := Except.ok.inj h
      exact first_carriedToken
    | some viewer =>
      simp only [known, Option.isSome_some, if_true] at h
      obtain ⟨found, looked, h⟩ := bind_eq_ok_iff.1 h
      rw [looked]
      cases found with
      | none =>
        obtain rfl := Except.ok.inj h
        exact first_carriedToken
      | some info =>
        obtain rfl := Except.ok.inj h
        rfl

/-- Every build binds what the first origin that applies offers, to a consumer that had nothing. -/
theorem first_buildFrom (h : buildFrom view args t services state = .ok a) :
    ∃ method placement b, a = (consumerOnly a.consumer method placement).setToken b ∧
      Origin.first? view args t state a.consumer = some b.binding := by
  rw [buildFrom] at h
  cases kind : args.kind with
  | signed =>
    simp only [kind] at h
    obtain ⟨consumer, -, h⟩ := bind_eq_ok_iff.1 h
    obtain rfl := Except.ok.inj h
    refine ⟨.get, .uriQuery, .none, rfl, ?_⟩
    rw [Origin.first?, Origin.order, List.findSome?_cons, Origin.offer?, if_pos (.inl kind)]
    rfl
  | delegated =>
    simp only [kind] at h
    obtain ⟨provider, -, h⟩ := bind_eq_ok_iff.1 h
    obtain ⟨consumer, -, h⟩ := bind_eq_ok_iff.1 h
    obtain ⟨token, bound, h⟩ := bind_eq_ok_iff.1 h
    obtain rfl := Except.ok.inj h
    rw [consumer_setToken]
    exact ⟨_, _, token, rfl, first_tokenFrom kind bound⟩

/-- What is offered comes from somewhere, unless it is no token. -/
theorem token_eq_none_of_offer? {o : Origin} {offer : Binding}
    (offered : o.offer? view args t state consumer = some offer) (nowhere : offer.source = .none) :
    offer.token = none := by
  cases o with
  | unwanted =>
    rw [Origin.offer?] at offered
    split at offered
    · obtain rfl := Option.some.inj offered
      rfl
    · cases offered
  | argument | carriedRequest =>
    obtain ⟨token, -, rfl⟩ := Option.map_eq_some_iff.1 offered
    cases nowhere
  | stored =>
    rw [Origin.offer?] at offered
    split at offered
    · obtain ⟨info, -, rfl⟩ := Option.map_eq_some_iff.1 offered
      cases nowhere
    · cases offered
  | carriedAccess =>
    rw [offer?_carriedAccess] at offered
    obtain ⟨info, -, rfl⟩ := Option.map_eq_some_iff.1 offered
    cases nowhere
  | absent =>
    obtain rfl := Option.some.inj offered
    rfl

theorem coherent_of_first {b : BoundToken}
    (first : Origin.first? view args t state consumer = some b.binding) :
    (a.setToken b).Coherent := by
  obtain ⟨o, -, offered⟩ := List.exists_of_findSome?_eq_some first
  refine coherent_setToken _ fun nowhere => ?_
  cases b with
  | none => rfl
  | _ => cases token_eq_none_of_offer? offered nowhere

/-- What is done to an accessor after it was built: a token of either kind is bound, or none. -/
inductive Rebinding where
  | access (info : TokenInfo) (source : TokenSource)
  | request (token secret : String) (source : TokenSource)
  | clear

namespace Rebinding

def apply (a : Accessor) : Rebinding → Accessor
  | access info source => a.setAccessToken info source
  | request token secret source => a.setRequestToken token secret source
  | clear => a.clearToken

/-- A token that is bound comes from somewhere. -/
def Sourced : Rebinding → Prop
  | access _ source | request _ _ source => source ≠ .none
  | clear => True

def binding : Rebinding → Binding
  | access info source => .ofAccess info source
  | request token secret source => .ofRequest token secret source
  | clear => {}

theorem binding_apply (a : Accessor) (r : Rebinding) : (r.apply a).binding = r.binding := by
  cases r <;> rfl

theorem coherent_apply {r : Rebinding} (sourced : r.Sourced) : (r.apply a).Coherent := by
  cases r with
  | access info source => exact a.coherent_setAccessToken info sourced
  | request token secret source => exact a.coherent_setRequestToken token secret sourced
  | clear => exact a.coherent_clearToken

end Rebinding

/-- After any changes one after the other, the record is the one of the last. -/
theorem binding_foldl (later : List Rebinding) : (later.foldl Rebinding.apply a).binding =
    (later.getLast?.map Rebinding.binding).getD a.binding := by
  induction later generalizing a with
  | nil => rfl
  | cons r later ih =>
    rw [List.foldl_cons, ih, r.binding_apply, List.getLast?_cons]
    cases later.getLast? <;> rfl

theorem coherent_foldl (h : a.Coherent) {later : List Rebinding}
    (sourced : ∀ r ∈ later, r.Sourced) : (later.foldl Rebinding.apply a).Coherent := by
  induction later generalizing a with
  | nil => exact h
  | cons r later ih =>
    obtain ⟨here, later⟩ := List.forall_mem_cons.1 sourced
    exact ih (Rebinding.coherent_apply here) later

/-- A build takes all that it binds from the first origin that applies. Whatever is bound or dropped
later, an accessor tells of the last token only, and of all of it; and if each token that is bound
comes from somewhere, then a source is told exactly if there is a token, a session only with an
access token, and a token never without its secret. The store of a server is one of the stores that
this is about. -/
theorem bound_by_precedence (h : buildFrom view args t services state = .ok a)
    (later : List Rebinding) :
    (∀ store : Store, store.view = view → build store args t services state = .ok a) ∧
    Origin.first? view args t state a.consumer = some a.binding ∧
    (later.foldl Rebinding.apply a).binding =
      (later.getLast?.map Rebinding.binding).getD a.binding ∧
    ((∀ r ∈ later, r.Sourced) → (later.foldl Rebinding.apply a).Coherent) := by
  obtain ⟨method, placement, b, whole, first⟩ := first_buildFrom h
  refine ⟨fun store same => ?_, ?_, binding_foldl later, fun sourced => ?_⟩
  · rw [build_eq_buildFrom, same, h]
  · rw [first, whole, binding_setToken]
  · have coherent : a.Coherent := whole ▸ coherent_of_first first
    exact coherent_foldl coherent sourced

/-- A state that has lost the secret of its access token, but not the session. -/
def halfFilledState : ClientState where
  requestToken := some "asked"
  accessToken := some "lost"
  sessionHandle := some "handle"
  expires := some 5

/-- A viewer of the page that is not known. -/
def stranger : SecurityToken := ⟨some "ann", none, "app", "gadget", 0, "domain"⟩

/-- A token with a session is bound, and another request token after it. -/
def rebindings : List Rebinding :=
  [.access ⟨"fresh", "hidden", some "handle", some 5⟩ .store, .request "next" "" .arguments]

/-- For a stranger, the request token of that state is bound without the session, and so is the
request token that is bound after a token with a session was. -/
theorem bound_by_precedence_halfFilled : ∃ a : Accessor, a.sessionHandle? = none ∧
    (rebindings.foldl Rebinding.apply a).sessionHandle? = none ∧
    buildFrom Call.photoStore.view (.delegated "photos") stranger
      (Call.photoCall fun _ => Call.found).services halfFilledState = .ok a ∧
    (∀ store : Store, store.view = Call.photoStore.view →
      build store (.delegated "photos") stranger (Call.photoCall fun _ => Call.found).services
        halfFilledState = .ok a) ∧
    Origin.first? Call.photoStore.view (.delegated "photos") stranger halfFilledState a.consumer =
      some a.binding ∧
    (rebindings.foldl Rebinding.apply a).binding =
      (rebindings.getLast?.map Rebinding.binding).getD a.binding ∧
    (rebindings.foldl Rebinding.apply a).Coherent := by
  let bare := consumerOnly ⟨"key", .hmac "secret", none, none⟩ .get .authHeader
  have built : buildFrom Call.photoStore.view (.delegated "photos") stranger
      (Call.photoCall fun _ => Call.found).services halfFilledState =
      .ok (bare.setRequestToken "asked" "" .clientState) := by rfl
  have sourced : ∀ r ∈ rebindings, r.Sourced := by simp [rebindings, Rebinding.Sourced]
  obtain ⟨own, first, last, coherent⟩ := bound_by_precedence built rebindings
  exact ⟨_, rfl, rfl, built, own, first, last, coherent sourced⟩

end Accessor
end DelegatedFetch
