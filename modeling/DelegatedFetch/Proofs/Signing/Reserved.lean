import DelegatedFetch.Proofs.Signing.Agreement

/-!
# Reserved parameters of a signed request

Whoever reads a signed request finds the parameters with reserved names that
signing has added, and no others, if the caller's own have none. The check of a
caller does not look into the authorization header; so this is known only of a
caller whose header has no reserved name, or whose header is replaced.
-/

namespace DelegatedFetch

namespace Parameter

/-- The parameters with a reserved name. -/
def reservedPairs (ps : Pairs) : Pairs := ps.filter (isReserved ·.1)

theorem reservedPairs_append (ps qs : Pairs) :
    reservedPairs (ps ++ qs) = reservedPairs ps ++ reservedPairs qs := List.filter_append ..

theorem reservedPairs_eq_nil {ps : Pairs} (h : ∀ q ∈ ps, isReserved q.1 = false) :
    reservedPairs ps = [] :=
  List.filter_eq_nil_iff.2 fun q hq => Bool.eq_false_iff.1 (h q hq)

theorem reservedPairs_eq_self {ps : Pairs} (h : ∀ q ∈ ps, isReserved q.1 = true) :
    reservedPairs ps = ps := List.filter_eq_self.2 h

theorem isProtocol_eq_false {name : String} (h : isReserved name = false) :
    isProtocol name = false := by
  rw [Bool.eq_false_iff] at h ⊢
  exact fun protocol => h (isReserved_of_isProtocol protocol)

end Parameter

namespace Request

open Parameter

variable {r : Request} {c : Credentials} {extra : Pairs} {p : Placement} {stamp : Stamp}

/-- The parameters that a request has in one place. -/
def pairsAt (r : Request) : Placement → Pairs
  | .authHeader => r.headerPairs
  | .uriQuery => r.url.queryPairs
  | .postBody => r.formPairs

theorem mem_carryingPlacements_iff :
    p ∈ r.carryingPlacements ↔ ∃ q ∈ r.pairsAt p, isProtocol q.1 = true := by
  have placements : r.carryingPlacements =
      Placement.all.filter fun p => (r.pairsAt p).any (isProtocol ·.1) := by
    change (Placement.all.map fun p => (p, r.pairsAt p)).filterMap _ = _
    rw [List.filterMap_map, ← List.filterMap_eq_filter]
    rfl
  have all : p ∈ Placement.all := by cases p <;> decide
  rw [placements, List.mem_filter, List.any_eq_true]
  exact and_iff_right all

/-- All that signing adds has a reserved name, if the extra parameters have. -/
theorem isReserved_added (reserved : ∀ q ∈ extra, isReserved q.1 = true) (stamp : Stamp)
    (signature : String) : ∀ q ∈ r.addedPairs c extra stamp ++ [(Parameter.signature, signature)],
      isReserved q.1 = true := by
  have each : ∀ name ∈ [consumerKey, token, signatureMethod, timestamp, nonce, version, bodyHash,
      Parameter.signature], isReserved name = true := by decide +kernel
  intro q hq
  rw [List.mem_append, List.mem_singleton] at hq
  simp only [addedPairs, List.mem_append, Option.mem_toList, Option.map_eq_some_iff] at hq
  rcases hq with ((((h | h) | ⟨t, -, rfl⟩) | h) | h) | rfl
  · exact reserved q h
  · rw [List.mem_singleton.1 h]
    exact each _ (by simp)
  · exact each _ (by simp)
  · refine each _ ?_
    simp only [List.mem_cons, List.not_mem_nil, or_false] at h
    rcases h with rfl | rfl | rfl | rfl <;> simp
  · split at h
    · rw [List.mem_singleton.1 h]
      exact each _ (by simp)
    · cases h
  · exact each _ (by simp)

/-- Where the header is none of the caller's, or has no reserved name, all reserved parameters were
written for the placement. -/
theorem reservedPairs_allPairs {ps : Pairs}
    (header : p = .authHeader ∨ ∀ q ∈ r.headerPairs, isReserved q.1 = false) :
    reservedPairs (r.place ps p).allPairs = reservedPairs (writtenPairs p (r.place ps p)) := by
  by_cases placement : p = .authHeader
  · rw [allPairs, writtenPairs, if_pos placement]
  · rw [allPairs_of_ne placement, headerPairs_place_of_ne placement, reservedPairs_append,
      reservedPairs_eq_nil (header.resolve_left placement), List.nil_append]

/-- A reader finds the reserved parameters that signing has added, each as often as it was added,
and those of the protocol proper at the one placement. -/
theorem reservedPairs_signWith {signed : Request} (clean : r.checkCaller = .ok ())
    (fit : ExtraFit extra) (reserved : ∀ q ∈ extra, isReserved q.1 = true)
    (header : p = .authHeader ∨ ∀ q ∈ r.headerPairs, isReserved q.1 = false)
    (fits : p.fits r = true) (h : r.signWith c extra p stamp = .ok signed) :
    ∃ signature, Signature.compute c (r.baseString (r.addedPairs c extra stamp)) = .ok signature ∧
      (reservedPairs signed.allPairs).Perm
        (r.addedPairs c extra stamp ++ [(Parameter.signature, signature)]) ∧
      signed.carryingPlacements = [p] := by
  obtain ⟨signature, made, rfl⟩ := signWith_eq_ok h
  have named := named_of_extraFit (r := r) (c := c) fit stamp signature
  have added := isReserved_added (r := r) (c := c) reserved stamp signature
  refine ⟨signature, made, ?_, ?_⟩
  · have all : reservedPairs (r.ownPairs ++
        (r.addedPairs c extra stamp ++ [(Parameter.signature, signature)])) =
        r.addedPairs c extra stamp ++ [(Parameter.signature, signature)] := by
      rw [reservedPairs_append, reservedPairs_eq_nil (checkCaller_eq_ok_iff.1 clean),
        reservedPairs_eq_self added, List.nil_append]
    have written := (writtenPairs_place (r := { r with followRedirects := false }) fits
      named).filter (isReserved ·.1)
    change (reservedPairs _).Perm (reservedPairs (r.ownPairs ++ _)) at written
    rw [all] at written
    rwa [reservedPairs_allPairs (r := { r with followRedirects := false }) header]
  · exact carryingPlacements_place (r := { r with followRedirects := false }) fits named
      (isProtocol_own clean) (header.imp_right fun h q hq => isProtocol_eq_false (h q hq))
      (exists_isProtocol_added stamp signature)

/-- Where the protocol's parameters are put, there are the caller's and what signing has added. -/
theorem writtenPairs_signWith {signed : Request} (fit : ExtraFit extra) (fits : p.fits r = true)
    (h : r.signWith c extra p stamp = .ok signed) : ∃ signature, (writtenPairs p signed).Perm
      (r.ownPairs ++ (r.addedPairs c extra stamp ++ [(Parameter.signature, signature)])) := by
  obtain ⟨signature, -, rfl⟩ := signWith_eq_ok h
  have named := named_of_extraFit (r := r) (c := c) fit stamp signature
  exact ⟨signature, writtenPairs_place (r := { r with followRedirects := false }) fits named⟩

theorem mem_writtenPairs_of_added {signed : Request} {q : String × String} (fit : ExtraFit extra)
    (fits : p.fits r = true) (h : r.signWith c extra p stamp = .ok signed)
    (added : q ∈ r.addedPairs c extra stamp) : q ∈ writtenPairs p signed := by
  obtain ⟨signature, written⟩ := writtenPairs_signWith fit fits h
  rw [written.mem_iff]
  exact List.mem_append_right _ (List.mem_append_left _ added)

/-- A reserved parameter that is read there was added by signing. -/
theorem mem_added_of_writtenPairs {signed : Request} {q : String × String}
    (clean : r.checkCaller = .ok ()) (fit : ExtraFit extra) (fits : p.fits r = true)
    (h : r.signWith c extra p stamp = .ok signed) (reserved : isReserved q.1 = true)
    (mem : q ∈ writtenPairs p signed) :
    q ∈ r.addedPairs c extra stamp ∨ q.1 = Parameter.signature := by
  obtain ⟨signature, written⟩ := writtenPairs_signWith fit fits h
  rw [written.mem_iff, List.mem_append, List.mem_append, List.mem_singleton] at mem
  rcases mem with own | added | last
  · exact absurd reserved (Bool.eq_false_iff.1 (checkCaller_eq_ok_iff.1 clean q own))
  · exact .inl added
  · exact .inr (congrArg Prod.fst last)

/-- Where the header is none of the caller's, or has no reserved name, a reserved parameter is read
there and nowhere else. -/
theorem mem_writtenPairs_of_allPairs {signed : Request} {q : String × String}
    (header : p = .authHeader ∨ ∀ q ∈ r.headerPairs, isReserved q.1 = false)
    (h : r.signWith c extra p stamp = .ok signed) (reserved : isReserved q.1 = true)
    (mem : q ∈ signed.allPairs) : q ∈ writtenPairs p signed := by
  obtain ⟨signature, -, rfl⟩ := signWith_eq_ok h
  have found : q ∈ reservedPairs _ := List.mem_filter.2 ⟨mem, reserved⟩
  rw [reservedPairs_allPairs (r := { r with followRedirects := false }) header] at found
  exact (List.mem_filter.1 found).1

end Request
end DelegatedFetch
