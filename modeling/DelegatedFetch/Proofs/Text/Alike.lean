import DelegatedFetch.Proofs.Text.Excerpt
import DelegatedFetch.Proofs.Text.Redaction
import Mathlib.Data.String.Basic

/-!
# Texts that redaction makes the same

Two texts count as alike if redaction makes the same of them wherever they stand.
To stand in one text is then enough to be alike in a larger one. The value of a
secret name is alike to any other: behind an equals sign, where it must not be
empty, and between quotes, where something stands before the name at which a value
ends that may not have ended yet. An excerpt may cut the value, but cuts both
at the same place if they have the same length.
-/

namespace DelegatedFetch

namespace Redaction

/-- Redaction makes the same of two texts, whatever stands before and after them. -/
def Alike (s t : String) : Prop :=
  ∀ before after : String, redact (before ++ s ++ after) = redact (before ++ t ++ after)

namespace Alike

theorem refl (s : String) : Alike s s := fun _ _ => rfl

variable {s t : String}

theorem append_left (h : Alike s t) (front : String) : Alike (front ++ s) (front ++ t) := by
  intro before after
  rw [← String.append_assoc, ← String.append_assoc]
  exact h (before ++ front) after

theorem append_right (h : Alike s t) (back : String) : Alike (s ++ back) (t ++ back) := by
  intro before after
  have whole := h before (back ++ after)
  simpa only [String.append_assoc] using whole

theorem redact_eq (h : Alike s t) : redact s = redact t := by
  have whole := h "" ""
  rwa [String.empty_append, String.append_empty, String.empty_append, String.append_empty] at whole

end Alike

/-- It is enough to look at two texts with nothing before them, whole and without what may belong to
a value there. -/
theorem alike_of_apart {s t : List Char} (apart : ∀ rest, Apart (s ++ rest) ∧ Apart (t ++ rest))
    (whole : ∀ rest, redactChars (s ++ rest) = redactChars (t ++ rest))
    (within : ∀ rest, redactChars ((s ++ rest).dropWhile isValueChar) =
      redactChars ((t ++ rest).dropWhile isValueChar)) :
    Alike (String.ofList s) (String.ofList t) := by
  intro before after
  obtain ⟨inValue, goes⟩ := redactChars_append before.toList
  have left := goes _ (apart after.toList).1
  have right := goes _ (apart after.toList).2
  simp only [redact, String.toList_append, String.toList_ofList, List.append_assoc, left, right]
  cases inValue with
  | true => rw [if_pos rfl, if_pos rfl, within]
  | false => rw [if_neg Bool.false_ne_true, if_neg Bool.false_ne_true, whole]

/-- A secret name at the front is where redaction begins anew. -/
theorem apart_name {name : List Char} (mem : name ∈ secretNames) (rest : List Char) :
    Apart (name ++ rest) := by
  have unnamed : ∀ name ∈ secretNames, ∀ part ∈ name.tail.tails,
      part ≠ [] → differs part ['o', 'a'] = true := by
    rw [secretNames_eq]
    decide
  rw [secretNames_eq, List.mem_cons, List.mem_singleton] at mem
  rcases mem with rfl | rfl
  · exact apart_of_front 'o' ['a'] unnamed (by decide) _
  · exact apart_of_front 'o' ['a'] unnamed (by decide) _

theorem redactChars_plain {name v : List Char} (mem : name ∈ secretNames) (h : IsValue v)
    (rest : List Char) : redactChars (name ++ '=' :: v ++ rest) =
      name ++ '=' :: ("REMOVED".toList ++ redactChars (rest.dropWhile isValueChar)) := by
  have removed := redactChars_name mem [] (v ++ rest) (h.plain rest)
  rw [dropWhile_isValueChar h.chars] at removed
  simpa using removed

/-- Behind an equals sign one value is as good as another. -/
theorem alike_plain {name v v' : List Char} (mem : name ∈ secretNames) (h : IsValue v)
    (h' : IsValue v') :
    Alike (String.ofList (name ++ '=' :: v)) (String.ofList (name ++ '=' :: v')) := by
  have within {v : List Char} (h : IsValue v) (rest : List Char) :
      (name ++ '=' :: v ++ rest).dropWhile isValueChar = rest.dropWhile isValueChar := by
    refine dropWhile_isValueChar (fun c inside => ?_) rest
    rcases List.mem_append.1 inside with inside | inside
    · exact ((spelled_of_mem mem).chars c inside).1
    rcases List.mem_cons.1 inside with rfl | inside
    · decide
    · exact h.chars c inside
  refine alike_of_apart (fun rest => ?_) (fun rest => ?_) (fun rest => ?_)
  · rw [List.append_assoc, List.append_assoc]
    exact ⟨apart_name mem _, apart_name mem _⟩
  · rw [redactChars_plain mem h, redactChars_plain mem h']
  · rw [within h, within h']

/-- What stands before a name in a header. -/
def leads : List (List Char) := [['O', 'A', 'u', 't', 'h', ' '], [',', ' ']]

theorem apart_lead {lead : List Char} (mem : lead ∈ leads) (rest : List Char) :
    Apart (lead ++ rest) := by
  rw [leads, List.mem_cons, List.mem_singleton] at mem
  rcases mem with rfl | rfl
  · exact apart_of_front 'O' ['A'] (by rw [secretNames_eq]; decide) (by decide) _
  · exact apart_of_front ',' [] (by rw [secretNames_eq]; decide) (by decide) _

theorem redactChars_lead {lead : List Char} (mem : lead ∈ leads) (rest : List Char) :
    redactChars (lead ++ rest) = lead ++ redactChars rest := by
  have kept : ∀ lead ∈ leads, ∀ part ∈ lead.tails, part ≠ [] →
      ∀ name ∈ secretNames, differs name part = true := by
    rw [secretNames_eq]
    decide
  exact redactChars_front lead (kept lead mem) rest

/-- A value does not go on behind a lead. -/
theorem redactChars_dropWhile_lead {lead : List Char} (mem : lead ∈ leads) (rest : List Char) :
    redactChars ((lead ++ rest).dropWhile isValueChar) =
      lead.dropWhile isValueChar ++ redactChars rest := by
  rw [leads, List.mem_cons, List.mem_singleton] at mem
  rcases mem with rfl | rfl
  · exact redactChars_front [' '] (by rw [secretNames_eq]; decide) rest
  · exact redactChars_front [',', ' '] (by rw [secretNames_eq]; decide) rest

theorem redactChars_quoted {name v : List Char} (mem : name ∈ secretNames)
    (chars : ∀ c ∈ v, isValueChar c = true) (rest : List Char) :
    redactChars (name ++ '=' :: '"' :: (v ++ '"' :: rest)) =
      name ++ '=' :: '"' :: ("REMOVED".toList ++ redactChars ('"' :: rest)) := by
  have opened : skipQuote (('"' :: (v ++ '"' :: rest)).dropWhile isBlank) = v ++ '"' :: rest := by
    have noBlank : isBlank '"' = false := by decide
    rw [List.dropWhile_cons_of_neg (by simp [noBlank])]
    rfl
  have ends : ('"' :: rest).dropWhile isValueChar = '"' :: rest :=
    List.dropWhile_cons_of_neg (by decide)
  have removed := redactChars_name mem ['"'] (v ++ '"' :: rest) opened
  rwa [dropWhile_isValueChar chars, ends] at removed

/-- So it is between quotes. -/
theorem alike_quoted {lead name v v' : List Char} (first : lead ∈ leads) (mem : name ∈ secretNames)
    (chars : ∀ c ∈ v, isValueChar c = true) (chars' : ∀ c ∈ v', isValueChar c = true) :
    Alike (String.ofList (lead ++ (name ++ '=' :: '"' :: (v ++ ['"']))))
      (String.ofList (lead ++ (name ++ '=' :: '"' :: (v' ++ ['"'])))) := by
  have same (rest : List Char) : redactChars (name ++ '=' :: '"' :: (v ++ '"' :: rest)) =
      redactChars (name ++ '=' :: '"' :: (v' ++ '"' :: rest)) := by
    rw [redactChars_quoted mem chars, redactChars_quoted mem chars']
  refine alike_of_apart (fun rest => ?_) (fun rest => ?_) (fun rest => ?_)
  · rw [List.append_assoc, List.append_assoc lead]
    exact ⟨apart_lead first _, apart_lead first _⟩
  · rw [List.append_assoc, List.append_assoc lead, redactChars_lead first, redactChars_lead first]
    simpa using same rest
  · rw [List.append_assoc, List.append_assoc lead, redactChars_dropWhile_lead first,
      redactChars_dropWhile_lead first]
    simpa using same rest

open String (utf8Len)

theorem isValue_of_mem_alphabet {v : List Char} (filled : v ≠ [])
    (mem : ∀ c ∈ v, c ∈ Form.alphabet) : IsValue v :=
  ⟨filled, fun c inside => isValueChar_of_mem_alphabet (mem c inside)⟩

section Cut

variable {name v v' : List Char} (mem : name ∈ secretNames) (chars : ∀ c ∈ v, c ∈ Form.alphabet)
  (chars' : ∀ c ∈ v', c ∈ Form.alphabet) (filled : v ≠ []) (long : v.length = v'.length)
include mem chars chars' filled long

theorem alike_within (front back : List Char) :
    Alike (String.ofList (front ++ (name ++ '=' :: v) ++ back))
      (String.ofList (front ++ (name ++ '=' :: v') ++ back)) := by
  have filled' : v' ≠ [] := by
    rintro rfl
    exact filled (List.length_eq_zero_iff.1 long)
  have inside := ((alike_plain mem (isValue_of_mem_alphabet filled chars)
    (isValue_of_mem_alphabet filled' chars')).append_left (String.ofList front)).append_right
      (String.ofList back)
  rwa [← String.ofList_append, ← String.ofList_append, ← String.ofList_append,
    ← String.ofList_append] at inside

/-- Values of the same length are cut at the same place. -/
theorem alike_takeBytes (n : Nat) (front back : List Char) :
    Alike (String.ofList (Excerpt.takeBytes n (front ++ (name ++ '=' :: v) ++ back)))
      (String.ofList (Excerpt.takeBytes n (front ++ (name ++ '=' :: v') ++ back))) := by
  have shape (v back : List Char) :
      front ++ (name ++ '=' :: v) ++ back = front ++ name ++ ['='] ++ (v ++ back) := by simp
  rw [shape, shape, Excerpt.takeBytes_append, Excerpt.takeBytes_append _ _ (v' ++ back)]
  by_cases reached : utf8Len (front ++ name ++ ['=']) ≤ n
  · rw [if_pos reached, if_pos reached,
      Excerpt.takeBytes_ascii_append fun c inside => Form.ascii_of_mem_alphabet c (chars c inside),
      Excerpt.takeBytes_ascii_append fun c inside => Form.ascii_of_mem_alphabet c (chars' c inside),
      long]
    generalize n - utf8Len (front ++ name ++ ['=']) = left
    cases left with
    | zero => exact Alike.refl _
    | succ left =>
      rw [← shape, ← shape]
      exact alike_within mem (fun c inside => chars c (List.mem_of_mem_take inside))
        (fun c inside => chars' c (List.mem_of_mem_take inside)) (by simp [filled])
        (by simp [long]) front _
  · rw [if_neg reached, if_neg reached]
    exact Alike.refl _

theorem alike_excerpt (front back : List Char) :
    Alike (Excerpt.excerpt (String.ofList (front ++ (name ++ '=' :: v) ++ back)))
      (Excerpt.excerpt (String.ofList (front ++ (name ++ '=' :: v') ++ back))) := by
  have size : utf8Len (front ++ (name ++ '=' :: v) ++ back) =
      utf8Len (front ++ (name ++ '=' :: v') ++ back) := by
    simp only [String.utf8Len_append, utf8Len, long,
      Excerpt.utf8Len_ascii fun c inside => Form.ascii_of_mem_alphabet c (chars c inside),
      Excerpt.utf8Len_ascii fun c inside => Form.ascii_of_mem_alphabet c (chars' c inside)]
  simp only [Excerpt.excerpt_eq_ite, String.utf8ByteSize_ofList, String.toList_ofList, size]
  by_cases fits : utf8Len (front ++ (name ++ '=' :: v') ++ back) ≤ Excerpt.limit
  · rw [if_pos fits, if_pos fits]
    exact alike_within mem chars chars' filled long front back
  · rw [if_neg fits, if_neg fits]
    exact (alike_takeBytes mem chars chars' filled long _ front back).append_right "..."

end Cut

end Redaction
end DelegatedFetch
