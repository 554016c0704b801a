import DelegatedFetch.Proofs.Fetch.Moves
import DelegatedFetch.Proofs.Signing.CarriedToken

/-!
# Where the tokens of a call come from

A call may bind tokens that it finds when it begins: among its arguments, in
the store under its key, in the state that its caller carries. While it runs,
providers grant it others. All along, the store and the state hold tokens of
these kinds only, each with the secret that came with it, and each request
that is sent was signed with such a token, by the consumer that the store had
for the call, for the placement that the service declares.
-/

namespace DelegatedFetch

/-- A provider answered a request with a token and its secret. -/
def Exchange.Grants (e : Exchange) (token secret : String) : Prop :=
  ∃ response, e.response = some response ∧ response.isSuccess = true ∧
    (Form.parse response.body).first? Parameter.token = some token ∧
    (Form.parse response.body).first? Parameter.tokenSecret = some secret

/-- The bare request for an endpoint, as it is signed. -/
def Endpoint.bare (e : Endpoint) : Request := ⟨e.method, e.url, [], [], true⟩

namespace Call

/-- A token that a call may bind, with the secret that came with it: one that the call found when it
began, or one that was granted by an exchange so far. -/
inductive Known (c : Call) (s : Surroundings) (sent : List Exchange) : BoundToken → Prop
  | none : Known c s sent .none
  | argument {token : String} (named : c.args.requestToken = some token) :
      Known c s sent (.request token (c.args.requestTokenSecret.getD "") .arguments)
  | carriedRequest {token : String}
      (held : (c.incomingState s.clock.millis).requestToken = some token) :
      Known c s sent (.request token
        ((c.incomingState s.clock.millis).requestTokenSecret.getD "") .clientState)
  | stored {info : TokenInfo}
      (held : s.store.token? c.token c.args.service c.args.tokenName = .ok (some info)) :
      Known c s sent (.access info .store)
  | carriedAccess {info : TokenInfo}
      (held : (c.incomingState s.clock.millis).accessInfo? = some info) :
      Known c s sent (.access info .clientState)
  | grantedRequest {e : Exchange} {token secret : String} {source : TokenSource} (mem : e ∈ sent)
      (purpose : e.purpose = .requestToken) (grants : e.Grants token secret) :
      Known c s sent (.request token secret source)
  | grantedAccess {e : Exchange} {info : TokenInfo} {source : TokenSource} (mem : e ∈ sent)
      (purpose : e.purpose = .accessToken ∨ e.purpose = .extension)
      (grants : e.Grants info.token info.secret) : Known c s sent (.access info source)

variable {c : Call} {s : Surroundings}

theorem Known.mono {sent sent' : List Exchange} {b : BoundToken} (h : Known c s sent b)
    (more : ∀ e ∈ sent, e ∈ sent') : Known c s sent' b := by
  cases h with
  | none => exact .none
  | argument named => exact .argument named
  | carriedRequest held => exact .carriedRequest held
  | stored held => exact .stored held
  | carriedAccess held => exact .carriedAccess held
  | grantedRequest mem purpose grants => exact .grantedRequest (more _ mem) purpose grants
  | grantedAccess mem purpose grants => exact .grantedAccess (more _ mem) purpose grants

/-- The consumer that the store has for a call. -/
def consumer (c : Call) (store : Store) : Except Refusal Consumer :=
  match c.args.kind with
  | .signed => store.consumer c.token "" none
  | .delegated => do
    let provider ← c.services.provider c.args.service
    store.consumer c.token c.args.service (some provider)

/-- Where the parameters of the protocol go in a request: as the request endpoint declares for
request tokens and the resource, as the access endpoint declares for access tokens, and in the query
for a signed fetch. -/
def declaredPlacement (c : Call) (purpose : Purpose) : Except Refusal Placement :=
  match c.args.kind with
  | .signed => .ok .uriQuery
  | .delegated => do
    let provider ← c.services.provider c.args.service
    match purpose with
    | .requestToken | .resource => return provider.request.placement
    | .accessToken | .extension => return provider.access.placement

/-- What is signed for a purpose: the caller's request, or the bare request of an endpoint. -/
def bareRequest (c : Call) (purpose : Purpose) : Except Refusal Request :=
  match purpose with
  | .resource => .ok c.request
  | .requestToken => do return (← c.services.provider c.args.service).request.bare
  | .accessToken | .extension => do return (← c.services.provider c.args.service).access.bare

theorem not_hasOAuthHeader_bare (endpoint : Endpoint) : ¬ endpoint.bare.HasOAuthHeader := by
  rintro ⟨header, mem, -⟩
  cases mem

/-- What is signed is the caller's request, or the bare request for an endpoint. -/
theorem bareRequest_eq_ok {purpose : Purpose} {bare : Request}
    (h : c.bareRequest purpose = .ok bare) :
    purpose = .resource ∧ bare = c.request ∨
      ∃ provider, c.services.provider c.args.service = .ok provider ∧
        (bare = provider.request.bare ∨ bare = provider.access.bare) := by
  cases declared : c.services.provider c.args.service with
  | error r =>
    cases purpose with
    | resource => exact .inl ⟨rfl, (Except.ok.inj h).symm⟩
    | _ =>
      simp only [bareRequest, declared] at h
      cases h
  | ok provider =>
    cases purpose with
    | resource => exact .inl ⟨rfl, (Except.ok.inj h).symm⟩
    | requestToken =>
      simp only [bareRequest, declared] at h
      exact .inr ⟨provider, rfl, .inl (Except.ok.inj h).symm⟩
    | _ =>
      simp only [bareRequest, declared] at h
      exact .inr ⟨provider, rfl, .inr (Except.ok.inj h).symm⟩

/-- What is signed for a purpose beside the parameters that every signed request has. -/
def extraPairs (c : Call) (purpose : Purpose) (a : Accessor) : Pairs :=
  match purpose with
  | .requestToken => (a.consumer.callback.map fun url => (Parameter.callback, url)).toList
  | .accessToken => (c.args.verifier.map fun v => (Parameter.verifier, v)).toList
  | .extension => (a.sessionHandle?.map fun handle => (Parameter.sessionHandle, handle)).toList
  | .resource => c.identityPairs a

/-- What goes into a signed request. -/
structure Signing where
  consumer : Consumer
  bare : Request
  placement : Placement
  bound : BoundToken
  extra : Pairs
  stamp : Stamp

/-- A consumer signs with a token, or without one. -/
def credentialsOf (consumer : Consumer) (bound : BoundToken) : Credentials :=
  ⟨consumer.key, consumer.secret, bound.token?, bound.secret?⟩

theorem credentialsOf_token (a : Accessor) : credentialsOf a.consumer a.token = a.credentials :=
  a.credentials_eq.symm

/-- A request was signed for a purpose, with a token that was known before it was sent. -/
structure Signing.Of (g : Signing) (c : Call) (s : Surroundings) (before : List Exchange)
    (purpose : Purpose) (request : Request) : Prop where
  consumer : c.consumer s.store = .ok g.consumer
  bare : c.bareRequest purpose = .ok g.bare
  placement : c.declaredPlacement purpose = .ok g.placement
  fits : g.placement.fits g.bare = true
  clean : purpose = .resource → g.bare.checkCaller = .ok ()
  known : Known c s before g.bound
  settled : purpose = .resource → g.bound.IsSettled
  extra : ExtraFit g.extra
  foreign : ∀ q ∈ g.extra, q.1 ≠ Parameter.token
  generated : ∃ a : Accessor, a.Coherent ∧ a.consumer = g.consumer ∧ a.token = g.bound ∧
    g.extra = c.extraPairs purpose a
  signed : g.bare.signWith (credentialsOf g.consumer g.bound) g.extra g.placement g.stamp =
    .ok request

/-- Each exchange was signed with what was known before it. -/
def AllSigned (c : Call) (s : Surroundings) (sent : List Exchange) : Prop :=
  ∀ before e after, sent = before ++ e :: after →
    ∃ g : Signing, g.Of c s before e.purpose e.request

theorem allSigned_nil : AllSigned c s [] := by
  intro before e after none
  simp at none

/-- One among some and one more is the last one, or among those before it. -/
theorem split_snoc {α : Type} {sent before after : List α} {e last : α}
    (split : sent ++ [last] = before ++ e :: after) :
    before = sent ∧ e = last ∧ after = [] ∨
      ∃ init, after = init ++ [last] ∧ sent = before ++ e :: init := by
  rcases List.eq_nil_or_concat after with rfl | ⟨init, y, ends⟩
  · obtain ⟨rfl, same⟩ := List.append_inj' split rfl
    exact .inl ⟨rfl, (List.cons.inj same).1.symm, rfl⟩
  · have parts : sent ++ [last] = (before ++ e :: init) ++ [y] := by
      rw [split, ends, List.concat_eq_append, List.append_assoc, List.cons_append]
    obtain ⟨earlier, same⟩ := List.append_inj' parts rfl
    obtain rfl := (List.cons.inj same).1
    exact .inr ⟨init, ends.trans List.concat_eq_append, earlier⟩

/-- What holds of each exchange, given those before it, holds on if it holds of one more. -/
theorem forall_split_snoc {P : List Exchange → Exchange → Prop} {sent : List Exchange} {x : Exchange}
    (h : ∀ before e after, sent = before ++ e :: after → P before e) (last : P sent x) :
    ∀ before e after, sent ++ [x] = before ++ e :: after → P before e := by
  intro before e after split
  rcases split_snoc split with ⟨rfl, rfl, -⟩ | ⟨init, -, earlier⟩
  · exact last
  · exact h before e init earlier

theorem AllSigned.snoc {sent : List Exchange} {e : Exchange} (h : AllSigned c s sent)
    (last : ∃ g : Signing, g.Of c s sent e.purpose e.request) : AllSigned c s (sent ++ [e]) :=
  forall_split_snoc h last

/-- What the store and the state hold is known, the store has changed under the key of the call only,
and all exchanges were signed with what was known. -/
structure Traced (c : Call) (s : Surroundings) (store : Store) (state : ClientState)
    (sent : List Exchange) : Prop where
  consumers : store.consumers = s.store.consumers
  defaultKey : store.defaultKey = s.store.defaultKey
  others : ∀ key, TokenKey.of c.token c.args.service c.args.tokenName ≠ .ok key →
    store.tokens.find? key = s.store.tokens.find? key
  stored : ∀ info, store.token? c.token c.args.service c.args.tokenName = .ok (some info) →
    Known c s sent (.access info .store)
  carriedAccess : ∀ info, state.accessInfo? = some info →
    Known c s sent (.access info .clientState)
  carriedRequest : ∀ token, state.requestToken = some token →
    Known c s sent (.request token (state.requestTokenSecret.getD "") .clientState)
  signed : AllSigned c s sent

/-- The invariant of a call. -/
def Invariant (c : Call) (s : Surroundings) (p : Progress) : Prop :=
  Traced c s p.store p.state p.sent

/-- What an exchange needs of the accessor that signs it. -/
structure Equipped (c : Call) (s : Surroundings) (a : Accessor) (sent : List Exchange) : Prop where
  consumer : c.consumer s.store = .ok a.consumer
  token : Known c s sent a.token
  alone : c.args.kind = .signed → a.token = .none ∧ a.placement = .uriQuery
  declared : c.args.kind = .delegated → ∃ provider,
    c.services.provider c.args.service = .ok provider ∧ a.method = provider.request.method ∧
      a.placement = provider.request.placement
  coherent : a.Coherent

theorem invariant_begun : Invariant c s (c.begun s) where
  consumers := rfl
  defaultKey := rfl
  others _ _ := rfl
  stored _ held := .stored held
  carriedAccess _ held := .carriedAccess held
  carriedRequest _ held := .carriedRequest held
  signed := allSigned_nil

variable {store : Store} {state : ClientState} {sent : List Exchange} {p p' : Progress}
  {a : Accessor}

theorem Traced.send {e : Exchange} (h : Traced c s store state sent)
    (signed : ∃ g : Signing, g.Of c s sent e.purpose e.request) :
    Traced c s store state (sent ++ [e]) where
  consumers := h.consumers
  defaultKey := h.defaultKey
  others := h.others
  stored info held := (h.stored info held).mono fun _ => List.mem_append_left _
  carriedAccess info held := (h.carriedAccess info held).mono fun _ => List.mem_append_left _
  carriedRequest token held := (h.carriedRequest token held).mono fun _ => List.mem_append_left _
  signed := h.signed.snoc signed

theorem Traced.clearAccessToken (h : Traced c s store state sent) :
    Traced c s store state.clearAccessToken sent :=
  { h with carriedAccess := nofun, carriedRequest := h.carriedRequest }

theorem Traced.clearRequestToken (h : Traced c s store state sent) :
    Traced c s store state.clearRequestToken sent :=
  { h with carriedAccess := h.carriedAccess, carriedRequest := nofun }

theorem Traced.setAccessToken {info : TokenInfo} (h : Traced c s store state sent)
    (known : Known c s sent (.access info .clientState)) :
    Traced c s store (state.setAccessToken info) sent :=
  { h with
    carriedAccess := fun _ held => by
      rw [ClientState.accessInfo?_setAccessToken] at held
      exact Option.some.inj held ▸ known
    carriedRequest := h.carriedRequest }

theorem Traced.setRequestToken {token secret : String} {callback : Option String}
    (h : Traced c s store state sent) (known : Known c s sent (.request token secret .clientState)) :
    Traced c s store { state.clearAccessToken with
      requestToken := some token, requestTokenSecret := some secret, callback } sent :=
  { h with
    carriedAccess := nofun
    carriedRequest := fun _ held => Option.some.inj held ▸ known }

/-- A token put under the key of the call is what is found there, and nothing else has changed. -/
theorem Traced.setToken {info : TokenInfo} {store' : Store} (h : Traced c s store state sent)
    (known : Known c s sent (.access info .store))
    (set : store.setToken c.token c.args.service c.args.tokenName info = .ok store') :
    Traced c s store' state sent := by
  obtain ⟨key, own, rfl⟩ := Store.setToken_eq_ok set
  refine { h with others := fun other foreign => ?_, stored := fun found held => ?_ }
  · have apart : other ≠ key := by
      rintro rfl
      exact foreign own
    rw [Table.find?_insert, if_neg apart, h.others other foreign]
  · obtain ⟨key', own', held⟩ := Store.token?_eq_ok held
    obtain rfl := Except.ok.inj (own.symm.trans own')
    rw [Table.find?_insert, if_pos rfl] at held
    exact Option.some.inj held ▸ known

theorem Traced.removeToken {store' : Store} (h : Traced c s store state sent)
    (removed : store.removeToken c.token c.args.service c.args.tokenName = .ok store') :
    Traced c s store' state sent := by
  obtain ⟨key, own, rfl⟩ := Store.removeToken_eq_ok removed
  refine { h with others := fun other foreign => ?_, stored := fun found held => ?_ }
  · have apart : other ≠ key := by
      rintro rfl
      exact foreign own
    rw [Table.find?_erase, if_neg apart, h.others other foreign]
  · obtain ⟨key', own', held⟩ := Store.token?_eq_ok held
    obtain rfl := Except.ok.inj (own.symm.trans own')
    rw [Table.find?_erase, if_pos rfl] at held
    cases held

theorem Traced.kept {info : TokenInfo} {source : TokenSource} (h : Invariant c s p)
    (known : ∀ source, Known c s p.sent (.access info source)) (kept : Kept c info p source p') :
    Invariant c s p' := by
  cases kept with
  | inStore server set => exact (Traced.setToken h (known _) set).clearAccessToken
  | inState client => exact Traced.setAccessToken h (known _)

theorem Traced.discarded (h : Invariant c s p) (discarded : Discarded c p p') :
    Invariant c s p' := by
  cases discarded with
  | stored removed => exact (Traced.removeToken h removed).clearAccessToken
  | carried stranger => exact Traced.clearAccessToken h

theorem arguments_eq (c : Call) (p : Progress) :
    (c.arguments p).service = c.args.service ∧ (c.arguments p).tokenName = c.args.tokenName ∧
      ∀ token, (c.arguments p).requestToken = some token →
        c.args.requestToken = some token ∧
          (c.arguments p).requestTokenSecret = c.args.requestTokenSecret := by
  rw [arguments]
  split
  · refine ⟨rfl, rfl, ?_⟩
    intro token named
    cases named
  · refine ⟨rfl, rfl, ?_⟩
    intro token named
    exact ⟨named, rfl⟩

theorem arguments_tokenUse (c : Call) (p : Progress) :
    (c.arguments p).tokenUse = c.args.tokenUse := by
  rw [arguments]
  split <;> rfl

/-- What an accessor is bound to is known. -/
theorem known_of_binds {b : BoundToken} (h : Invariant c s p)
    (binds : Accessor.Binds p.store (c.arguments p) c.token p.state b) : Known c s p.sent b := by
  obtain ⟨service, tokenName, named⟩ := c.arguments_eq p
  cases binds with
  | none => exact .none
  | argument first =>
    obtain ⟨first, secret⟩ := named _ first
    exact secret ▸ .argument first
  | stored _ held => exact Traced.stored h _ (service ▸ tokenName ▸ held)
  | carriedAccess _ held => exact Traced.carriedAccess h _ held
  | carriedRequest _ held => exact Traced.carriedRequest h _ held

/-- The consumer is found in what the store has not changed. -/
theorem consumer_eq (h : Traced c s store state sent) (service : String)
    (provider : Option Provider) :
    store.consumer c.token service provider = s.store.consumer c.token service provider := by
  simp only [Store.consumer, Store.registered?, Store.defaultFor?, h.consumers, h.defaultKey]

theorem equipped_of_build (h : Invariant c s p)
    (built : Accessor.build p.store (c.arguments p) c.token c.services p.state = .ok a) :
    Equipped c s a p.sent := by
  have same := c.arguments_kind p
  obtain ⟨service, -, -⟩ := c.arguments_eq p
  cases kind : c.args.kind with
  | signed =>
    obtain ⟨found, none, query⟩ := Accessor.build_signed (same.trans kind) built
    refine ⟨?_, none ▸ .none, fun _ => ⟨none, query⟩, fun other => ?_,
      Accessor.coherent_build built⟩
    · rw [consumer, kind, ← consumer_eq h]
      exact found
    · rw [kind] at other
      cases other
  | delegated =>
    obtain ⟨provider, declared, found, method, placement, chosen⟩ :=
      Accessor.build_delegated (same.trans kind) built
    rw [service] at declared found
    refine ⟨?_, known_of_binds h chosen.binds, fun other => ?_,
      fun _ => ⟨provider, declared, method, placement⟩, Accessor.coherent_build built⟩
    · rw [consumer, kind]
      simp only [declared, ← consumer_eq h]
      exact found
    · rw [kind] at other
      cases other

theorem Equipped.setAccessToken {info : TokenInfo} {source : TokenSource} (h : Equipped c s a sent)
    (known : Known c s sent (.access info source)) (kind : c.args.kind = .delegated)
    (kept : source ≠ .none) : Equipped c s (a.setAccessToken info source) sent where
  consumer := h.consumer
  token := known
  alone other := nomatch kind.symm.trans other
  declared := h.declared
  coherent := a.coherent_setAccessToken info kept

theorem Equipped.clearToken (h : Equipped c s a sent) : Equipped c s a.clearToken sent where
  consumer := h.consumer
  token := .none
  alone kind := ⟨rfl, (h.alone kind).2⟩
  declared := h.declared
  coherent := a.coherent_clearToken

theorem Equipped.mono {sent' : List Exchange} (h : Equipped c s a sent)
    (more : ∀ e ∈ sent, e ∈ sent') : Equipped c s a sent' :=
  ⟨h.consumer, h.token.mono more, h.alone, h.declared, h.coherent⟩

end Call
end DelegatedFetch
