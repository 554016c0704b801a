import DelegatedFetch.Proofs.Fetch.Preservation

/-!
# What is sent is rightly signed

Each request that a call sends passes the check that a provider makes of it,
under the secret of the call's consumer and the secret that came with the token
that the request carries. Its parameters are where the service wants them, and
it follows no redirection.

A caller can spoil its own request by an authorization header of the same
scheme, and a declaration can by protocol parameters in the URL of an endpoint;
neither is checked.
-/

namespace DelegatedFetch.Call

/-- No endpoint of the service that is called has a reserved name in its query. -/
def EndpointsClean (c : Call) : Prop :=
  ∀ provider, c.services.provider c.args.service = .ok provider →
    ∀ q ∈ provider.request.url.queryPairs ++ provider.access.url.queryPairs,
      Parameter.isReserved q.1 = false

variable {c : Call} {s : Surroundings}

/-- The bare request for an endpoint has the parameters of its URL and no header. -/
theorem checkCaller_bare {endpoint : Endpoint}
    (clean : ∀ q ∈ endpoint.url.queryPairs, Parameter.isReserved q.1 = false) :
    endpoint.bare.checkCaller = .ok () := by
  refine Request.checkCaller_eq_ok_iff.2 fun q hq => clean q ?_
  rcases List.mem_append.1 hq with query | form
  · exact query
  · cases form

/-- What is signed for any purpose is clean. -/
theorem clean_of_signing {g : Signing} {before : List Exchange} {purpose : Purpose}
    {request : Request} (h : g.Of c s before purpose request)
    (caller : ¬ c.request.HasOAuthHeader) (endpoints : c.EndpointsClean) :
    g.bare.checkCaller = .ok () ∧ ¬ g.bare.HasOAuthHeader := by
  rcases bareRequest_eq_ok h.bare with ⟨resource, own⟩ | ⟨provider, declared, own | own⟩
  · exact ⟨h.clean resource, own ▸ caller⟩
  · have clean := endpoints provider declared
    exact ⟨own ▸ checkCaller_bare fun q hq => clean q (List.mem_append_left _ hq),
      own ▸ not_hasOAuthHeader_bare _⟩
  · have clean := endpoints provider declared
    exact ⟨own ▸ checkCaller_bare fun q hq => clean q (List.mem_append_right _ hq),
      own ▸ not_hasOAuthHeader_bare _⟩

/-- Every request that is sent is accepted by a verifier that knows the secret of the consumer and
the secret that came with the one token that the request carries; it is signed for the placement
that is declared, and follows no redirection. -/
theorem sent_verifies (c : Call) (s : Surroundings) (caller : ¬ c.request.HasOAuthHeader)
    (endpoints : c.EndpointsClean)
    (verifies : ∀ consumer, c.consumer s.store = .ok consumer → consumer.secret.VerifiesOwn) :
    ∀ before e after, (c.fetch s).2.sent = before ++ e :: after →
      e.request.followRedirects = false ∧
      ∃ consumer bound params, c.consumer s.store = .ok consumer ∧ Known c s before bound ∧
        tokensIn e.request.allPairs = bound.token?.toList ∧
        e.request.verify (credentialsOf consumer bound).verificationKey = .ok params ∧
        c.declaredPlacement e.purpose = .ok params.placement := by
  intro before e after split
  obtain ⟨g, h⟩ := (c.invariant_fetch s).signed before e after split
  obtain ⟨clean, header⟩ := clean_of_signing h caller endpoints
  obtain ⟨params, accepted, placement⟩ := Request.verify_signWith clean
    (verifies _ h.consumer) h.extra (.inr header) h.fits h.signed
  refine ⟨Request.followRedirects_signWith h.signed, g.consumer, g.bound, params, h.consumer,
    h.known, ?_, accepted, placement ▸ h.placement⟩
  exact Request.tokensIn_allPairs clean h.extra h.foreign header h.fits h.signed

/-- Two elements are told by what they are mapped to. -/
theorem eq_pair_of_map {α β : Type} {f : α → β} {xs : List α} {u v : β}
    (told : xs.map f = [u, v]) : ∃ x y, xs = [x, y] ∧ f x = u ∧ f y = v := by
  obtain ⟨x, rest, rfl, first, told⟩ := List.map_eq_cons_iff.1 told
  obtain ⟨y, rfl, second⟩ := List.map_eq_singleton_iff.1 told
  exact ⟨x, y, rfl, first, second⟩

/-- Three elements are told by what they are mapped to. -/
theorem eq_triple_of_map {α β : Type} {f : α → β} {xs : List α} {u v w : β}
    (told : xs.map f = [u, v, w]) : ∃ x y z, xs = [x, y, z] ∧ f x = u ∧ f y = v ∧ f z = w := by
  obtain ⟨x, rest, rfl, first, told⟩ := List.map_eq_cons_iff.1 told
  obtain ⟨y, z, rfl, others⟩ := eq_pair_of_map told
  exact ⟨x, y, z, rfl, first, others⟩

/-- An endpoint of a service that keeps photos. -/
def photoEndpoint (path : String) : Endpoint :=
  ⟨⟨"https", "", "", some (.domain "photos.example"), none, path, none, none⟩, .get, .authHeader⟩

/-- A gadget's call of that service, by the owner of the page. -/
def photoCall (replies : Nat → Reply) : Call where
  policy := ⟨⟨List.replicate 16 0, "state", by decide⟩, .server, false, 1000⟩
  request := ⟨.get, ⟨"https", "", "", some (.domain "photos.example"), none, "/list",
    some "page=2", none⟩, [], [], true⟩
  token := ⟨some "ann", some "ann", "app", "gadget", 0, "domain"⟩
  args := FetchArguments.delegated "photos"
  services := Services.add .empty (.current ⟨"photos", photoEndpoint "/request",
    photoEndpoint "/access", (photoEndpoint "/authorize").url⟩)
  replies

/-- Such a call where the service wants its parameters at a placement, and the request has an
authorization header of its own. -/
def headedCall (placement : Placement) (header : String) (replies : Nat → Reply) : Call :=
  let call := photoCall replies
  { call with
    request := { call.request with headers := [("Authorization", header)] }
    services := Services.add .empty (.current ⟨"photos",
      { photoEndpoint "/request" with placement }, photoEndpoint "/access",
      (photoEndpoint "/authorize").url⟩) }

/-- A store with a default key and the token of one viewer. -/
def photoStore : Store where
  defaultKey := some ⟨"key", .hmac "secret", none, none⟩
  tokens := Table.empty.insert ⟨"gadget", "photos", "ann", 0, ""⟩ ⟨"token", "hidden", none, none⟩

/-- What that call finds: the token of its viewer, and no cache. -/
def photoStart : Surroundings := ⟨⟨0, 0⟩, ⟨fun _ => 0, 0⟩, photoStore, none⟩

/-- The reply that a resource was found. -/
def found : Reply := ⟨.ok { status := 200 }, 0⟩

/-- The stored token signs the one request of a call that finds the resource. -/
theorem sent_verifies_stored : ∃ e, ((photoCall fun _ => found).fetch photoStart).2.sent = [e] ∧
    e.request.followRedirects = false ∧
      ∃ consumer bound params, (photoCall fun _ => found).consumer photoStore = .ok consumer ∧
        Known (photoCall fun _ => found) photoStart [] bound ∧
        tokensIn e.request.allPairs = bound.token?.toList ∧
        e.request.verify (credentialsOf consumer bound).verificationKey = .ok params ∧
        (photoCall fun _ => found).declaredPlacement e.purpose = .ok params.placement := by
  have one : ((photoCall fun _ => found).fetch photoStart).2.sent.length = 1 := by decide +kernel
  obtain ⟨e, sent⟩ := List.length_eq_one_iff.1 one
  have endpoints : (photoCall fun _ => found).EndpointsClean := by
    intro provider declared
    obtain rfl := Except.ok.inj declared
    decide +kernel
  have verifies : ∀ consumer, (photoCall fun _ => found).consumer photoStore = .ok consumer →
      consumer.secret.VerifiesOwn := by
    intro consumer known
    obtain rfl := Except.ok.inj known
    trivial
  exact ⟨e, sent, sent_verifies _ _ (by decide) endpoints verifies [] e [] sent⟩

end DelegatedFetch.Call
