import DelegatedFetch.Signing.BaseString

/-!
# The order of parameters does not matter

Signer and verifier collect the same parameters in different orders. Pairs of
texts are totally ordered by name and then value, so sorting forgets the order
in which they were collected.
-/

namespace DelegatedFetch.BaseString

theorem pairLE_iff {a b : String × String} :
    pairLE a b = true ↔ a.1 < b.1 ∨ a.1 = b.1 ∧ a.2 ≤ b.2 := by
  simp only [pairLE, Bool.or_eq_true, Bool.and_eq_true, decide_eq_true_eq, beq_iff_eq]

theorem pairLE_trans (a b c : String × String) (hab : pairLE a b = true)
    (hbc : pairLE b c = true) : pairLE a c = true := by
  rw [pairLE_iff] at *
  rcases hab with hab | ⟨hab, values⟩
  · rcases hbc with hbc | ⟨hbc, -⟩
    · exact .inl (String.lt_trans hab hbc)
    · exact .inl (hbc ▸ hab)
  · rcases hbc with hbc | ⟨hbc, values'⟩
    · exact .inl (hab ▸ hbc)
    · exact .inr ⟨hab.trans hbc, String.le_trans values values'⟩

theorem pairLE_total (a b : String × String) : (pairLE a b || pairLE b a) = true := by
  rw [Bool.or_eq_true, pairLE_iff, pairLE_iff]
  by_cases hab : a.1 < b.1
  · exact .inl (.inl hab)
  by_cases hba : b.1 < a.1
  · exact .inr (.inl hba)
  have names : a.1 = b.1 := String.le_antisymm (String.not_lt.1 hba) (String.not_lt.1 hab)
  rcases String.le_total a.2 b.2 with values | values
  · exact .inl (.inr ⟨names, values⟩)
  · exact .inr (.inr ⟨names.symm, values⟩)

theorem pairLE_antisymm {a b : String × String} (hab : pairLE a b = true)
    (hba : pairLE b a = true) : a = b := by
  rw [pairLE_iff] at *
  rcases hab with hab | ⟨names, values⟩
  · rcases hba with hba | ⟨names, -⟩
    · exact absurd hba (String.lt_asymm hab)
    · exact absurd (names ▸ hab) (String.lt_irrefl _)
  · rcases hba with hba | ⟨-, values'⟩
    · exact absurd (names ▸ hba) (String.lt_irrefl _)
    · exact Prod.ext names (String.le_antisymm values values')

/-- Sorting forgets the order of what is sorted. -/
theorem mergeSort_eq_of_perm {ps qs : Pairs} (h : ps.Perm qs) :
    ps.mergeSort pairLE = qs.mergeSort pairLE := by
  refine List.Perm.eq_of_pairwise (fun _ _ _ _ => pairLE_antisymm)
    (List.pairwise_mergeSort pairLE_trans pairLE_total ps)
    (List.pairwise_mergeSort pairLE_trans pairLE_total qs) ?_
  exact (List.mergeSort_perm ps pairLE).trans (h.trans (List.mergeSort_perm qs pairLE).symm)

theorem signedPairs_perm {ps qs : Pairs} (h : ps.Perm qs) :
    (signedPairs ps).Perm (signedPairs qs) := h.filter _

/-- The signature is dropped once and for all. -/
theorem signedPairs_signedPairs (ps : Pairs) : signedPairs (signedPairs ps) = signedPairs ps := by
  simp only [signedPairs, List.filter_filter, Bool.and_self]

/-- The signed text depends on the address of a URL only, and on which parameters are signed. -/
theorem render_eq {method : Method} {u v : Url} {ps qs : Pairs} (addresses : address u = address v)
    (h : (signedPairs ps).Perm (signedPairs qs)) : render method u ps = render method v qs := by
  have sorted := mergeSort_eq_of_perm (h.map escapePair)
  simp only [render, normalize, addresses, sorted]

end DelegatedFetch.BaseString
