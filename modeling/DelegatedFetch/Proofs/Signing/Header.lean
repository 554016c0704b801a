import DelegatedFetch.Proofs.Text.Escapes
import DelegatedFetch.Signing.AuthorizationHeader

/-!
# Reading back the authorization header

Every sign with a meaning in the header (comma, equals sign, quote, blank) is
escaped within names and values. So the parts between commas are the written
parameters with a space before all but the first, and reading gives the
parameters back in order. Only one named `realm` is lost.
-/

namespace DelegatedFetch.AuthorizationHeader

open Percent

/-- Escaped text has no sign with a meaning in it. -/
theorem plain_of_mem_alphabet :
    ∀ c ∈ alphabet, c ≠ ',' ∧ c ≠ '=' ∧ c ≠ '"' ∧ isBlank c = false :=
  forall_mem_of_all (by decide +kernel)

theorem plain_of_mem_encode {s : String} {c : Char} (h : c ∈ (Percent.encode s).toList) :
    c ≠ ',' ∧ c ≠ '=' ∧ c ≠ '"' ∧ isBlank c = false :=
  plain_of_mem_alphabet c (mem_encode h)

/-- A parameter as characters: the name, and the value between quotes. -/
theorem toList_renderPair (p : String × String) :
    (renderPair p).toList = (Percent.encode p.1).toList ++
      '=' :: '"' :: ((Percent.encode p.2).toList ++ ['"']) := by
  simp [renderPair]

theorem mem_renderPair {p : String × String} {c : Char} (h : c ∈ (renderPair p).toList) :
    c ≠ ',' ∧ isBlank c = false := by
  rw [toList_renderPair] at h
  simp only [List.mem_append, List.mem_cons, List.not_mem_nil, or_false] at h
  rcases h with h | rfl | rfl | h | rfl
  · exact ⟨(plain_of_mem_encode h).1, (plain_of_mem_encode h).2.2.2⟩
  · decide
  · decide
  · exact ⟨(plain_of_mem_encode h).1, (plain_of_mem_encode h).2.2.2⟩
  · decide

theorem parsePart?_renderPair (p : String × String) :
    parsePart? (renderPair p).toList = some p := by
  have noBlank : strip isBlank (renderPair p).toList = (renderPair p).toList :=
    strip_of_forall_not fun c hc => (mem_renderPair hc).2
  have nameFree : ∀ c ∈ (Percent.encode p.1).toList, (c == '=') = false := fun c hc =>
    beq_false_of_ne (plain_of_mem_encode hc).2.1
  have name : strip isBlank (Percent.encode p.1).toList = (Percent.encode p.1).toList :=
    strip_of_forall_not fun c hc => (plain_of_mem_encode hc).2.2.2
  have value : strip isBlank ('"' :: ((Percent.encode p.2).toList ++ ['"'])) =
      '"' :: ((Percent.encode p.2).toList ++ ['"']) := by
    refine strip_of_forall_not fun c hc => (mem_renderPair (p := p) ?_).2
    rw [toList_renderPair]
    exact List.mem_append_right _ (List.mem_cons_of_mem _ hc)
  have unquoted : strip (· == '"') ('"' :: ((Percent.encode p.2).toList ++ ['"'])) =
      (Percent.encode p.2).toList :=
    strip_between (by rfl) fun c hc => beq_false_of_ne (plain_of_mem_encode hc).2.2.1
  rw [parsePart?, noBlank, toList_renderPair, cut?_append_cons _ nameFree (by rfl)]
  simp only [Option.map_some, name, value, unquoted, String.ofList_toList, Percent.decode_encode]

theorem parsePart?_blank_renderPair (p : String × String) :
    parsePart? (' ' :: (renderPair p).toList) = some p := by
  have blank : isBlank ' ' = true := by decide
  rw [← parsePart?_renderPair p, parsePart?, parsePart?, strip_cons blank]

theorem not_comma_of_mem_renderPair {p : String × String} :
    ∀ c ∈ (renderPair p).toList, (c == ',') = false :=
  fun _ hc => beq_false_of_ne (mem_renderPair hc).1

/-- The parts of a header: all but the first have a space in front. -/
theorem pieces_intercalate (p : String × String) (ps : Pairs) :
    pieces (· == ',') (String.intercalate ", " ((p :: ps).map renderPair)).toList =
      (renderPair p).toList :: ps.map fun q => ' ' :: (renderPair q).toList := by
  induction ps generalizing p with
  | nil =>
    simpa using pieces_of_forall_not _ (not_comma_of_mem_renderPair (p := p))
  | cons q ps ih =>
    have joined : (String.intercalate ", " ((p :: q :: ps).map renderPair)).toList =
        (renderPair p).toList ++
          ',' :: ' ' :: (String.intercalate ", " ((q :: ps).map renderPair)).toList := by
      simp
    have comma : (',' == ',') = true := by decide
    have space : (' ' == ',') = false := by decide
    rw [joined, pieces_append_cons (· == ',') not_comma_of_mem_renderPair comma,
      pieces_cons_of_not (· == ',') space (ih q)]
    rfl

theorem filterMap_parsePart? (ps : Pairs) :
    (pieces (· == ',') (String.intercalate ", " (ps.map renderPair)).toList).filterMap parsePart? =
      ps := by
  cases ps with
  | nil => rfl
  | cons p ps =>
    rw [pieces_intercalate, List.filterMap_cons_some (parsePart?_renderPair p),
      List.filterMap_map]
    have each : (parsePart? ∘ fun q => ' ' :: (renderPair q).toList) = some := by
      funext q
      rw [Function.comp_apply, parsePart?_blank_renderPair]
    rw [each, List.filterMap_some]

/-- Reading gives back what was written, but for `realm`. -/
theorem parse_render (ps : Pairs) : parse (render ps) = ps.filter (·.1 != "realm") := by
  have opening : (render ps).toList =
      "OAuth ".toList ++ (String.intercalate ", " (ps.map renderPair)).toList := by
    simp [render]
  have isScheme : ((render ps).toList.take scheme.length).map Char.toLower = scheme := by
    rw [opening, List.take_left' (by decide)]
    decide
  have tail : (render ps).toList.drop scheme.length =
      (String.intercalate ", " (ps.map renderPair)).toList := by
    rw [opening, List.drop_left' (by decide)]
  simp only [parse, isScheme, if_true, tail, filterMap_parsePart?]

end DelegatedFetch.AuthorizationHeader
