import DelegatedFetch.Proofs.Fetch.Preservation

/-!
# Which token a request of a call carries

A request carries the token that its accessor is bound to. A request for the
resource carries no other, since the caller's own parameters name none; the
declared URL of an endpoint might. A header of the caller's own is not looked
at: where it is not replaced, the request has the tokens in it beside the one
that it carries.
-/

namespace DelegatedFetch.Call

/-- A token is among the parameters of a request that were written for its placement. It may be
anywhere in the request, if the caller has written no header of the scheme. -/
def Carries (c : Call) (e : Exchange) (token : String) : Prop :=
  (∃ placement, c.declaredPlacement e.purpose = .ok placement ∧
    token ∈ tokensIn (Request.writtenPairs placement e.request)) ∨
  (¬ c.request.HasOAuthHeader ∧ token ∈ tokensIn e.request.allPairs)

/-- A request carries the token that it was signed with, or one that was there before it was
signed. -/
theorem token_or_own_of_carries {c : Call} {s : Surroundings} {g : Signing}
    {before : List Exchange} {e : Exchange} {token : String}
    (h : g.Of c s before e.purpose e.request) (carries : c.Carries e token) :
    g.bound.token? = some token ∨ token ∈ tokensIn g.bare.ownPairs := by
  have written : token ∈ tokensIn (Request.writtenPairs g.placement e.request) := by
    rcases carries with ⟨placement, declared, mem⟩ | ⟨header, mem⟩
    · obtain rfl := Except.ok.inj (h.placement.symm.trans declared)
      exact mem
    · have header : ¬ g.bare.HasOAuthHeader := by
        rcases bareRequest_eq_ok h.bare with ⟨-, own⟩ | ⟨provider, -, own | own⟩
        · exact own ▸ header
        · exact own ▸ not_hasOAuthHeader_bare _
        · exact own ▸ not_hasOAuthHeader_bare _
      rwa [← Request.allPairs_signWith header h.signed]
  rw [(Request.tokensIn_signWith_perm h.extra h.foreign h.fits h.signed).mem_iff, List.mem_append,
    Option.mem_toList] at written
  exact written.symm

/-- A request for a resource carries the token that it was signed with. -/
theorem token_of_carries {c : Call} {s : Surroundings} {g : Signing} {before : List Exchange}
    {e : Exchange} {token : String} (h : g.Of c s before e.purpose e.request)
    (resource : e.purpose = .resource) (carries : c.Carries e token) :
    g.bound.token? = some token := by
  rcases token_or_own_of_carries h carries with bound | own
  · exact bound
  · rw [Request.tokensIn_ownPairs_of_clean (h.clean resource)] at own
    cases own

/-- What is signed with a token carries it. -/
theorem Signing.Of.carries {c : Call} {s : Surroundings} {g : Signing} {before : List Exchange}
    {e : Exchange} {token : String} (h : g.Of c s before e.purpose e.request)
    (bound : g.bound.token? = some token) : c.Carries e token :=
  .inl ⟨g.placement, h.placement, Request.mem_tokensIn_signWith h.extra bound h.fits h.signed⟩

/-- A request for a resource carries the token that it was signed with, and no other. -/
theorem carries_resource_iff {c : Call} {s : Surroundings} {g : Signing} {before : List Exchange}
    {e : Exchange} (h : g.Of c s before e.purpose e.request) (resource : e.purpose = .resource)
    (token : String) : c.Carries e token ↔ g.bound.token? = some token :=
  ⟨token_of_carries h resource, h.carries⟩

/-- The caller's request, signed with a token, carries it. -/
theorem carries_of_signs {c : Call} {a : Accessor} {clock : Clock} {entropy entropy' : Entropy}
    {signed : Request} {response : Option Response} {token : String}
    (placed : c.declaredPlacement .resource = .ok a.placement)
    (signs : c.request.sign a.credentials (c.identityPairs a) a.placement clock entropy =
      (.ok signed, entropy')) (bound : a.token.token? = some token) :
    c.Carries ⟨.resource, signed, response⟩ token := by
  obtain ⟨fits, made⟩ := Request.signWith_of_sign (congrArg Prod.fst signs)
  obtain ⟨fit, -⟩ := extraFit_of_names (c.names_of_identityPairs a)
  exact .inl ⟨a.placement, placed,
    Request.mem_tokensIn_signWith fit (a.token_credentials.trans bound) fits made⟩

/-- A request for a resource carries one token at most. -/
theorem carries_iff_eq {c : Call} {s : Surroundings} {before after : List Exchange} {e : Exchange}
    {token : String} (sent : (c.fetch s).2.sent = before ++ e :: after)
    (resource : e.purpose = .resource) (carries : c.Carries e token) (other : String) :
    c.Carries e other ↔ other = token := by
  obtain ⟨g, h⟩ := (c.invariant_fetch s).signed before e after sent
  rw [carries_resource_iff h resource] at carries ⊢
  rw [carries, Option.some_inj, eq_comm]

/-- The tokens in a request for the resource are the one that it carries and those in the caller's
own header, where that is not replaced. -/
theorem mem_tokensIn_resource_iff {c : Call} {s : Surroundings} {before after : List Exchange}
    {e : Exchange} {token : String} (sent : (c.fetch s).2.sent = before ++ e :: after)
    (resource : e.purpose = .resource) :
    token ∈ tokensIn e.request.allPairs ↔ c.Carries e token ∨
      c.declaredPlacement .resource ≠ .ok .authHeader ∧ token ∈ tokensIn c.request.headerPairs := by
  obtain ⟨g, h⟩ := (c.invariant_fetch s).signed before e after sent
  rw [carries_resource_iff h resource, Request.tokensIn_allPairs_signWith (h.clean resource) h.extra
    h.foreign h.fits h.signed, List.mem_append, Option.mem_toList, or_comm]
  have own := h.bare
  have placed := h.placement
  rw [resource] at own placed
  rw [← Except.ok.inj own, placed]
  by_cases replaced : g.placement = .authHeader
  · simp [replaced, credentialsOf]
  · simp [replaced, credentialsOf]

end DelegatedFetch.Call
