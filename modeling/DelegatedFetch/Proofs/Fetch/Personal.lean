import DelegatedFetch.Proofs.Fetch.Generated

/-!
# Requests that are for their viewer

A request for the resource is for its viewer if it carries a token or tells who that is. Of what the
engine puts into it, it does either exactly if an access token is bound, or if the viewer is signed;
and then the viewer is told by the identity that the response is cached for.

Where the parameters go elsewhere than into the header, a caller's own header is sent as it is, and
may have both.
-/

namespace DelegatedFetch

/-- The parameters that make a request one of its viewer's. -/
def Parameter.personal : List String := [token, viewerId]

theorem Parameter.isReserved_personal {name : String} (personal : name ∈ Parameter.personal) :
    isReserved name = true := by
  have each : ∀ name ∈ Parameter.personal, isReserved name = true := by decide +kernel
  exact each name personal

theorem Request.token_or_extra_of_added {r : Request} {c : Credentials} {extra : Pairs}
    {stamp : Stamp} {q : String × String} (added : q ∈ r.addedPairs c extra stamp)
    (personal : q.1 ∈ Parameter.personal) : c.token ≠ none ∨ q ∈ extra := by
  have other {name : String} (fixed : name ∈ [Parameter.consumerKey, Parameter.signatureMethod,
      Parameter.timestamp, Parameter.nonce, Parameter.version, Parameter.bodyHash]) :
      name ∉ Parameter.personal := by
    revert name
    decide
  simp only [addedPairs, List.mem_append, Option.mem_toList, Option.map_eq_some_iff] at added
  rcases added with (((h | h) | ⟨t, held, -⟩) | h) | h
  · exact .inr h
  · rw [List.mem_singleton.1 h] at personal
    exact absurd personal (other (by simp))
  · exact .inl (Option.ne_none_iff_exists'.2 ⟨t, held⟩)
  · simp only [List.mem_cons, List.not_mem_nil, or_false] at h
    rcases h with rfl | rfl | rfl | rfl <;> exact absurd personal (other (by simp))
  · split at h
    · rw [List.mem_singleton.1 h] at personal
      exact absurd personal (other (by simp))
    · cases h

namespace Call

variable {c : Call} {s : Surroundings} {a : Accessor} {e : Exchange} {before : List Exchange}

/-- A request has a token, or names its viewer: where the parameters of the protocol are put, or
anywhere, if the caller's own header has no say. -/
def Personal (c : Call) (e : Exchange) : Prop :=
  (∃ placement, c.declaredPlacement e.purpose = .ok placement ∧
    ∃ q ∈ Request.writtenPairs placement e.request, q.1 ∈ Parameter.personal) ∨
  c.HeaderClean ∧ ∃ q ∈ e.request.allPairs, q.1 ∈ Parameter.personal

/-- The viewer is signed, and known. -/
def SignsViewer (c : Call) : Prop := c.args.signViewer = true ∧ c.token.viewer ≠ none

theorem signsViewer_of_mem {pair : String × String} (mem : pair ∈ c.identityPairs a)
    (name : pair.1 = Parameter.viewerId) : c.SignsViewer := by
  rw [identityPairs, List.mem_append, List.mem_append] at mem
  rcases mem with (owner | viewer) | gadget
  · obtain ⟨o, -, rfl⟩ := Option.map_eq_some_iff.1 (Option.mem_toList.1 owner)
    dsimp only at name
    exact absurd name (by decide)
  · obtain ⟨v, told, -⟩ := Option.map_eq_some_iff.1 (Option.mem_toList.1 viewer)
    obtain ⟨known, signed⟩ := Option.filter_eq_some_iff.1 told
    exact ⟨signed, Option.ne_none_iff_exists'.2 ⟨v, known⟩⟩
  · split at gadget
    · cases gadget
    rcases List.mem_append.1 gadget with application | key
    · simp only [List.mem_cons, List.not_mem_nil, or_false] at application
      rcases application with rfl | rfl <;> dsimp only at name <;> exact absurd name (by decide)
    · split at key
      · simp only [List.mem_cons, List.not_mem_nil, or_false] at key
        rcases key with rfl | rfl <;> dsimp only at name <;> exact absurd name (by decide)
      · cases key

theorem SignsViewer.mem (signs : c.SignsViewer) (a : Accessor) :
    ∃ viewer, (Parameter.viewerId, viewer) ∈ c.identityPairs a := by
  obtain ⟨viewer, known⟩ := Option.ne_none_iff_exists'.1 signs.2
  refine ⟨viewer, List.mem_append_left _ (List.mem_append_right _ ?_)⟩
  rw [known, signs.1]
  exact List.mem_cons_self

variable {g : Signing}

/-- What is signed for the resource is the caller's request, with what is told about the identity. -/
theorem Signing.Of.ofResource (h : g.Of c s before e.purpose e.request)
    (resource : e.purpose = .resource) :
    g.bare = c.request ∧ ∃ a : Accessor, g.extra = c.identityPairs a := by
  obtain ⟨generator, -, -, -, generated⟩ := h.generated
  have declared := h.bare
  rw [resource] at declared generated
  exact ⟨(Except.ok.inj declared).symm, generator, generated⟩

/-- What is for the viewer stands where the parameters were put, wherever it is read. -/
theorem Personal.written (personal : c.Personal e) (h : g.Of c s before e.purpose e.request)
    (resource : e.purpose = .resource) :
    ∃ q ∈ Request.writtenPairs g.placement e.request, q.1 ∈ Parameter.personal := by
  rcases personal with ⟨placement, declared, found⟩ | ⟨header, q, mem, name⟩
  · rw [Except.ok.inj (h.placement.symm.trans declared)]
    exact found
  · have kept : g.placement = .authHeader ∨
        ∀ q ∈ g.bare.headerPairs, Parameter.isReserved q.1 = false := by
      rcases header with replaced | clean
      · rw [← resource] at replaced
        exact .inl (Except.ok.inj (h.placement.symm.trans replaced))
      · exact .inr ((h.ofResource resource).1 ▸ clean)
    exact ⟨q, Request.mem_writtenPairs_of_allPairs kept h.signed
      (Parameter.isReserved_personal name) mem, name⟩

theorem bound_or_signs_of_written {pair : String × String}
    (h : g.Of c s before e.purpose e.request) (resource : e.purpose = .resource)
    (written : pair ∈ Request.writtenPairs g.placement e.request)
    (name : pair.1 ∈ Parameter.personal) : g.bound.IsAccess ∨ c.SignsViewer := by
  rcases Request.mem_added_of_writtenPairs (h.clean resource) h.extra h.fits h.signed
    (Parameter.isReserved_personal name) written with added | last
  · rcases Request.token_or_extra_of_added added name with held | extra
    · have bound : g.bound ≠ .none := by
        intro unbound
        rw [unbound] at held
        exact held rfl
      exact .inl ((h.settled resource).isAccess bound)
    · obtain ⟨-, generator, extras⟩ := h.ofResource resource
      have viewerId : pair.1 = Parameter.viewerId := by
        simpa [Parameter.personal, h.foreign pair extra] using name
      exact .inr (signsViewer_of_mem (extras ▸ extra) viewerId)
  · rw [last] at name
    exact absurd name (by decide)

/-- A request for the resource is for its viewer if an access token is bound or the viewer is signed,
and only then. -/
theorem personal_iff (h : g.Of c s before e.purpose e.request) (resource : e.purpose = .resource) :
    c.Personal e ↔ g.bound.IsAccess ∨ c.SignsViewer := by
  constructor
  · intro personal
    obtain ⟨pair, written, name⟩ := personal.written h resource
    exact bound_or_signs_of_written h resource written name
  · rintro (⟨info, source, access⟩ | signs)
    · have bound : g.bound.token? = some info.token := by rw [access]; rfl
      have written := Request.mem_tokensIn_signWith h.extra bound h.fits h.signed
      exact .inl ⟨g.placement, h.placement, _, mem_tokensIn.1 written,
        (by decide : Parameter.token ∈ Parameter.personal)⟩
    · obtain ⟨-, generator, extras⟩ := h.ofResource resource
      obtain ⟨viewer, mem⟩ := signs.mem generator
      rw [← extras] at mem
      have added : (Parameter.viewerId, viewer) ∈
          g.bare.addedPairs (credentialsOf g.consumer g.bound) g.extra g.stamp := by
        simp [Request.addedPairs, mem]
      have written := Request.mem_writtenPairs_of_added h.extra h.fits h.signed added
      exact .inl ⟨g.placement, h.placement, _, written,
        (by decide : Parameter.viewerId ∈ Parameter.personal)⟩

/-- The key of a request that is for its viewer tells the viewer. -/
theorem viewer_cacheIdentity (h : g.Of c s before e.purpose e.request)
    (resource : e.purpose = .resource) (bound : g.bound = a.token) (personal : c.Personal e) :
    (c.cacheIdentity a).viewer = c.token.viewer := by
  have counts : (c.args.signViewer || a.hasAccessToken) = true := by
    rw [Bool.or_eq_true]
    rcases (personal_iff h resource).1 personal with ⟨info, source, access⟩ | signs
    · refine .inr ?_
      rw [Accessor.hasAccessToken_eq, ← bound, access]
      rfl
    · exact .inl signs.1
  change c.token.viewer.filter _ = _
  rw [counts]
  cases c.token.viewer <;> rfl

/-- Where the parameters go elsewhere, the caller's header is sent as it is. -/
theorem Signing.Of.headerPairs {placement : Placement} (h : g.Of c s before e.purpose e.request)
    (resource : e.purpose = .resource) (declared : c.declaredPlacement .resource = .ok placement)
    (other : placement ≠ .authHeader) : e.request.headerPairs = c.request.headerPairs := by
  have placed := h.placement
  rw [resource] at placed
  obtain rfl := Except.ok.inj (placed.symm.trans declared)
  obtain ⟨signature, -, made⟩ := Request.signWith_eq_ok h.signed
  rw [made, ← (h.ofResource resource).1]
  exact Request.headerPairs_place_of_ne other

end Call
end DelegatedFetch
