import DelegatedFetch.Proofs.Signing.BaseString
import DelegatedFetch.Proofs.Text.Escapes

/-!
# What a signed text tells

A signed text can be read: its parts stand between the first signs `&`, and
within the last part, once its escapes are read, the parameters stand between
such signs again. No part has one of its own, since each is escaped. So two
requests have one signed text only if their methods, addresses and signed
parameters are the same. The order of parameters is lost, how often each of
them occurs is not.
-/

namespace DelegatedFetch.BaseString

/-- Escaped text has no sign that separates. -/
theorem unseparated_of_mem_alphabet : ∀ c ∈ Percent.alphabet, (c == '&') = false ∧ (c == '=') = false :=
  forall_mem_of_all (by decide +kernel)

theorem unseparated_of_mem_encode {s : String} :
    ∀ c ∈ (Percent.encode s).toList, (c == '&') = false ∧ (c == '=') = false :=
  fun c mem => unseparated_of_mem_alphabet c (Percent.mem_encode mem)

def writePair (p : String × String) : String := Percent.encode p.1 ++ "=" ++ Percent.encode p.2

/-- The parameter that is written in a part, if one is. -/
def readPair? (part : List Char) : Option (String × String) :=
  (cut? (· == '=') part).map fun (name, value) =>
    (Percent.decode (String.ofList name), Percent.decode (String.ofList value))

/-- The parameters of a normalized text. -/
def readPairs (text : String) : Pairs := (pieces (· == '&') text.toList).filterMap readPair?

theorem toList_writePair (p : String × String) :
    (writePair p).toList = (Percent.encode p.1).toList ++ '=' :: (Percent.encode p.2).toList := by
  simp [writePair]

theorem readPair?_writePair (p : String × String) : readPair? (writePair p).toList = some p := by
  have name : ∀ c ∈ (Percent.encode p.1).toList, (c == '=') = false :=
    fun c mem => (unseparated_of_mem_encode c mem).2
  rw [readPair?, toList_writePair, cut?_append_cons _ name (by rfl)]
  simp only [Option.map_some, String.ofList_toList, Percent.decode_encode]

theorem not_ampersand_of_mem_writePair {p : String × String} :
    ∀ c ∈ (writePair p).toList, (c == '&') = false := by
  intro c mem
  rw [toList_writePair, List.mem_append, List.mem_cons] at mem
  rcases mem with name | rfl | value
  · exact (unseparated_of_mem_encode c name).1
  · decide
  · exact (unseparated_of_mem_encode c value).1

/-- Parameters that are joined are read back, none from the empty text. -/
theorem readPairs_intercalate (ps : Pairs) :
    readPairs (String.intercalate "&" (ps.map writePair)) = ps := by
  rw [readPairs]
  induction ps with
  | nil => rfl
  | cons p ps ih =>
    cases ps with
    | nil =>
      simp [pieces_of_forall_not _ (not_ampersand_of_mem_writePair (p := p)), readPair?_writePair]
    | cons q ps =>
      have joined : (String.intercalate "&" ((p :: q :: ps).map writePair)).toList =
          (writePair p).toList ++
            '&' :: (String.intercalate "&" ((q :: ps).map writePair)).toList := by
        simp
      rw [joined, pieces_append_cons _ not_ampersand_of_mem_writePair (by rfl),
        List.filterMap_cons_some (readPair?_writePair p), ih]

/-- A pair as it was before it was escaped. -/
def unescapePair (p : String × String) : String × String := (Percent.decode p.1, Percent.decode p.2)

theorem unescapePair_escapePair (p : String × String) : unescapePair (escapePair p) = p := by
  simp only [unescapePair, escapePair, Percent.decode_encode]

/-- Normalizing puts the signed parameters into some order. -/
theorem exists_perm_normalize (ps : Pairs) : ∃ sorted : Pairs, sorted.Perm (signedPairs ps) ∧
    normalize ps = String.intercalate "&" (sorted.map writePair) := by
  have perm := List.mergeSort_perm ((signedPairs ps).map escapePair) pairLE
  refine ⟨(((signedPairs ps).map escapePair).mergeSort pairLE).map unescapePair, ?_, ?_⟩
  · have unescaped := perm.map unescapePair
    rwa [List.map_map, funext unescapePair_escapePair (f := unescapePair ∘ escapePair) (g := id),
      List.map_id] at unescaped
  · rw [normalize, List.map_map]
    congr 1
    refine List.map_congr_left fun e mem => ?_
    obtain ⟨p, -, rfl⟩ := List.mem_map.1 (perm.mem_iff.1 mem)
    rw [Function.comp_apply, unescapePair_escapePair]
    rfl

/-- Method, address and parameters of a signed text. -/
def read? (text : String) : Option (Method × String × Pairs) := do
  let (method, rest) ← cut? (· == '&') text.toList
  let (address, normalized) ← cut? (· == '&') rest
  return (← Method.parse? (String.ofList method), Percent.decode (String.ofList address),
    readPairs (Percent.decode (String.ofList normalized)))

/-- A signed text is read back, but for the order of parameters. -/
theorem read?_render (method : Method) (url : Url) (ps : Pairs) : ∃ sorted : Pairs,
    sorted.Perm (signedPairs ps) ∧ read? (render method url ps) = some (method, address url, sorted) := by
  obtain ⟨sorted, perm, normalized⟩ := exists_perm_normalize ps
  refine ⟨sorted, perm, ?_⟩
  have name : ∀ c ∈ method.name.toList, (c == '&') = false := by
    cases method <;> exact forall_mem_of_all (by decide)
  have escaped : ∀ c ∈ (Percent.encode (address url)).toList, (c == '&') = false :=
    fun c mem => (unseparated_of_mem_encode c mem).1
  have parts : (render method url ps).toList = method.name.toList ++
      '&' :: ((Percent.encode (address url)).toList ++
        '&' :: (Percent.encode (normalize ps)).toList) := by
    simp [render]
  simp only [read?, parts, cut?_append_cons _ name (by rfl : ('&' == '&') = true),
    cut?_append_cons _ escaped (by rfl : ('&' == '&') = true), Option.bind_eq_bind, Option.bind_some,
    String.ofList_toList, Method.parse?_name, Percent.decode_encode, normalized,
    readPairs_intercalate]
  rfl

/-- Two requests have one signed text exactly if they have one method and one address, and the same
parameters as often, the signature aside. -/
theorem render_eq_iff {method method' : Method} {url url' : Url} {ps qs : Pairs} :
    render method url ps = render method' url' qs ↔
      method = method' ∧ address url = address url' ∧
        (ps.filter (·.1 != "oauth_signature")).Perm (qs.filter (·.1 != "oauth_signature")) := by
  constructor
  · intro same
    obtain ⟨sorted, perm, read⟩ := read?_render method url ps
    obtain ⟨sorted', perm', read'⟩ := read?_render method' url' qs
    rw [same, read', Option.some_inj, Prod.mk.injEq, Prod.mk.injEq] at read
    obtain ⟨rfl, addresses, rfl⟩ := read
    exact ⟨rfl, addresses.symm, perm.symm.trans perm'⟩
  · rintro ⟨rfl, addresses, perm⟩
    exact render_eq addresses perm

end DelegatedFetch.BaseString
