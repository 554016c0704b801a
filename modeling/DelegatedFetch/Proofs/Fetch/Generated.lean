import DelegatedFetch.Proofs.Fetch.Sent
import DelegatedFetch.Proofs.Signing.Reserved

/-!
# Reserved parameters are generated

Whoever reads a request that a call has sent finds the reserved parameters that
the call generated for it, and none that came with the caller's request or with
the declaration of the service; and those of the protocol proper are in one
place.

Two ways in are left open. A caller's authorization header is passed on where
the parameters go elsewhere, and the query of a declared endpoint is not
checked.
-/

namespace DelegatedFetch.Call

open Parameter

variable {c : Call} {s : Surroundings}

/-- A caller's header has no say: it is replaced by the engine's, or has no reserved name. -/
def HeaderClean (c : Call) : Prop :=
  c.declaredPlacement .resource = .ok .authHeader ∨
    ∀ q ∈ c.request.headerPairs, isReserved q.1 = false

theorem isReserved_extraPairs (purpose : Purpose) (a : Accessor) :
    ∀ q ∈ c.extraPairs purpose a, isReserved q.1 = true := by
  have each : ∀ name ∈ extraNames, isReserved name = true := by decide +kernel
  exact fun q hq => each _ (c.names_of_extraPairs purpose a q hq)

/-- Where the caller's header has no say, nothing that is signed has a reserved name of its own. -/
theorem HeaderClean.of_signing {g : Signing} {before : List Exchange} {purpose : Purpose}
    {request : Request} (header : c.HeaderClean) (endpoints : c.EndpointsClean)
    (h : g.Of c s before purpose request) : g.bare.checkCaller = .ok () ∧
      (g.placement = .authHeader ∨ ∀ q ∈ g.bare.headerPairs, isReserved q.1 = false) := by
  have bareHeader (endpoint : Endpoint) :
      ∀ q ∈ endpoint.bare.headerPairs, isReserved q.1 = false := by
    rw [Request.headerPairs_of_not_hasOAuthHeader (not_hasOAuthHeader_bare endpoint)]
    exact List.forall_mem_nil _
  rcases bareRequest_eq_ok h.bare with ⟨resource, own⟩ | ⟨provider, declared, own | own⟩
  · refine ⟨h.clean resource, ?_⟩
    rcases header with replaced | clean
    · left
      rw [← resource] at replaced
      exact Except.ok.inj (h.placement.symm.trans replaced)
    · exact .inr (own ▸ clean)
  · have clean := endpoints provider declared
    exact ⟨own ▸ checkCaller_bare fun q hq => clean q (List.mem_append_left _ hq),
      .inr (own ▸ bareHeader _)⟩
  · have clean := endpoints provider declared
    exact ⟨own ▸ checkCaller_bare fun q hq => clean q (List.mem_append_right _ hq),
      .inr (own ▸ bareHeader _)⟩

/-- The reserved parameters of a request that is sent are those that were generated for it: what its
purpose asks for, what every signed request has, and the signature. Those of the protocol proper are
at the declared placement only. -/
theorem reserved_generated (header : c.HeaderClean) (endpoints : c.EndpointsClean)
    {before after : List Exchange} {e : Exchange}
    (sent : (c.fetch s).2.sent = before ++ e :: after) :
    ∃ (a : Accessor) (bare : Request) (placement : Placement) (stamp : Stamp) (signature : String),
      a.Coherent ∧ c.consumer s.store = .ok a.consumer ∧ Known c s before a.token ∧
      c.bareRequest e.purpose = .ok bare ∧ c.declaredPlacement e.purpose = .ok placement ∧
      Signature.compute a.credentials
        (bare.baseString (bare.addedPairs a.credentials (c.extraPairs e.purpose a) stamp)) =
          .ok signature ∧
      (reservedPairs e.request.allPairs).Perm
        (bare.addedPairs a.credentials (c.extraPairs e.purpose a) stamp ++
          [(Parameter.signature, signature)]) ∧
      e.request.carryingPlacements = [placement] := by
  obtain ⟨g, h⟩ := (c.invariant_fetch s).signed before e after sent
  obtain ⟨clean, header⟩ := header.of_signing endpoints h
  obtain ⟨a, coherent, consumer, bound, extra⟩ := h.generated
  have credentials : credentialsOf g.consumer g.bound = a.credentials := by
    rw [← consumer, ← bound, credentialsOf_token]
  have reserved : ∀ q ∈ g.extra, isReserved q.1 = true := extra ▸ isReserved_extraPairs e.purpose a
  obtain ⟨signature, made, found, place⟩ := Request.reservedPairs_signWith clean h.extra reserved
    header h.fits h.signed
  rw [credentials, extra] at made found
  exact ⟨a, g.bare, g.placement, g.stamp, signature, coherent, consumer ▸ h.consumer, bound ▸ h.known, h.bare,
    h.placement, made, found, place⟩

/-- A gadget's call whose own request has an authorization header, with a token and a viewer in it,
to a service that wants its parameters at a placement. -/
def smugglingCall (placement : Placement) : Call :=
  headedCall placement "OAuth oauth_token=\"smuggled\", opensocial_viewer_id=\"mallory\""
    fun _ => found

theorem endpointsClean_smugglingCall (placement : Placement) :
    (smugglingCall placement).EndpointsClean := by
  intro provider declared
  obtain rfl := Except.ok.inj declared
  cases placement <;> decide +kernel

/-- None of what that call is given or finds is the token in its header. -/
theorem ne_smuggled_of_known {placement : Placement} {b : BoundToken}
    (known : Known (smugglingCall placement) photoStart [] b) : b.token? ≠ some "smuggled" := by
  have empty : (smugglingCall placement).incomingState photoStart.clock.millis = .empty := rfl
  cases known with
  | none => exact nofun
  | argument named => cases named
  | carriedRequest held =>
    rw [empty] at held
    cases held
  | stored held =>
    have stored : photoStore.token? (photoCall fun _ => found).token "photos" "" =
        .ok (some ⟨"token", "hidden", none, none⟩) := by rfl
    obtain rfl := Option.some.inj (Except.ok.inj (held.symm.trans stored))
    decide
  | carriedAccess held =>
    rw [empty] at held
    cases held
  | grantedRequest mem => cases mem
  | grantedAccess mem => cases mem

theorem sent_smugglingCall (placement : Placement) (fits : placement ≠ .postBody) :
    ∃ e, ((smugglingCall placement).fetch photoStart).2.sent = [] ++ e :: [] ∧
      e.purpose = .resource := by
  have told : ((smugglingCall placement).fetch photoStart).2.sent.map (·.purpose) =
      [.resource] := by
    cases placement with
    | postBody => exact absurd rfl fits
    | _ => decide +kernel
  exact List.map_eq_singleton_iff.1 told

/-- Where the header takes the parameters, nothing of the caller's header is left. -/
theorem reserved_generated_replaced : ∃ e,
    ((smugglingCall .authHeader).fetch photoStart).2.sent = [] ++ e :: [] ∧
      ∃ (a : Accessor) (bare : Request) (placement : Placement) (stamp : Stamp)
        (signature : String),
        a.Coherent ∧ (smugglingCall .authHeader).consumer photoStore = .ok a.consumer ∧
        Known (smugglingCall .authHeader) photoStart [] a.token ∧
        (smugglingCall .authHeader).bareRequest e.purpose = .ok bare ∧
        (smugglingCall .authHeader).declaredPlacement e.purpose = .ok placement ∧
        Signature.compute a.credentials (bare.baseString (bare.addedPairs a.credentials
          ((smugglingCall .authHeader).extraPairs e.purpose a) stamp)) = .ok signature ∧
        (reservedPairs e.request.allPairs).Perm (bare.addedPairs a.credentials
          ((smugglingCall .authHeader).extraPairs e.purpose a) stamp ++
            [(Parameter.signature, signature)]) ∧
        e.request.carryingPlacements = [placement] := by
  obtain ⟨e, sent, -⟩ := sent_smugglingCall .authHeader (by decide)
  exact ⟨e, sent, reserved_generated (.inl rfl) (endpointsClean_smugglingCall _) sent⟩

/-- Where the query takes them, a provider finds the caller's token and viewer in the header, beside
the engine's parameters in the query. -/
theorem keeps_smuggled_header : ∃ e,
    ((smugglingCall .uriQuery).fetch photoStart).2.sent = [] ++ e :: [] ∧
      ("oauth_token", "smuggled") ∈ reservedPairs e.request.allPairs ∧
      ("opensocial_viewer_id", "mallory") ∈ reservedPairs e.request.allPairs ∧
      (∀ b, Known (smugglingCall .uriQuery) photoStart [] b → b.token? ≠ some "smuggled") ∧
      Placement.authHeader ∈ e.request.carryingPlacements ∧
      Placement.uriQuery ∈ e.request.carryingPlacements := by
  obtain ⟨e, sent, resource⟩ := sent_smugglingCall .uriQuery (by decide)
  obtain ⟨g, h⟩ := ((smugglingCall .uriQuery).invariant_fetch photoStart).signed [] e [] sent
  have own := h.bare
  have query := h.placement
  rw [resource] at own query
  obtain ⟨signature, -, placed⟩ := Request.signWith_eq_ok h.signed
  rw [← Except.ok.inj own, ← Except.ok.inj query] at placed
  have header : e.request.headerPairs = (smugglingCall .uriQuery).request.headerPairs := by
    rw [placed]
    exact Request.headerPairs_place_of_ne (by decide)
  have added : (consumerKey, g.consumer.key) ∈ e.request.url.queryPairs := by
    rw [placed, Request.queryPairs_place_uriQuery]
    exact List.mem_append_right _ (List.mem_append_left _ Request.consumerKey_mem_addedPairs)
  have written : (smugglingCall .uriQuery).request.headerPairs =
      [("oauth_token", "smuggled"), ("opensocial_viewer_id", "mallory")] := by decide +kernel
  rw [written] at header
  have found {q : String × String} (mem : q ∈ e.request.headerPairs)
      (reserved : isReserved q.1 = true) : q ∈ reservedPairs e.request.allPairs :=
    List.mem_filter.2 ⟨List.mem_append_left _ (List.mem_append_left _ mem), reserved⟩
  have token : ("oauth_token", "smuggled") ∈ e.request.headerPairs := by simp [header]
  have viewer : ("opensocial_viewer_id", "mallory") ∈ e.request.headerPairs := by simp [header]
  exact ⟨e, sent, found token (by decide +kernel), found viewer (by decide +kernel),
    fun _ => ne_smuggled_of_known,
    Request.mem_carryingPlacements_iff.2 ⟨_, token, by decide⟩,
    Request.mem_carryingPlacements_iff.2 ⟨_, added, (by decide : isProtocol consumerKey = true)⟩⟩

end DelegatedFetch.Call
