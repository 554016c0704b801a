import DelegatedFetch.Proofs.Text.Escapes
import DelegatedFetch.Text.Redaction
import DelegatedFetch.Text.Split
import Mathlib.Data.List.Infix
import Mathlib.Data.List.TakeWhile

/-!
# How redaction goes through a text

Redaction looks for a secret at each place of a text, from left to right, and goes
on behind a value that it has removed. So what it makes of the end of a text does
not depend on the beginning, as long as nothing that it looks for stands across
the border: no name, nor the sign between a name and its value. A value may stand
across; then its rest is removed with it.

Signs `&` are such borders, and no value stands across them. So the segments of a
form are redacted one by one.
-/

namespace DelegatedFetch.Redaction

theorem secretNames_eq : secretNames =
    [['o', 'a', 'u', 't', 'h', '_', 't', 'o', 'k', 'e', 'n', '_', 's', 'e', 'c', 'r', 'e', 't'],
     ['o', 'a', 'u', 't', 'h', '_', 's', 'e', 's', 's', 'i', 'o', 'n', '_', 'h', 'a', 'n', 'd', 'l',
      'e']] :=
  congr (congrArg List.cons String.toList_ofList) (congrArg List.singleton String.toList_ofList)

/-- How a secret name is spelled: in the letters that case is ignored for, and with none of the signs
that have a meaning in a form. -/
structure Spelled (name : List Char) : Prop where
  folded : name.map foldCase = name
  first : name.head? = some 'o'
  chars : ∀ c ∈ name, isValueChar c = true ∧ c ≠ '%' ∧ c ≠ '+' ∧ c ≠ '=' ∧ c ≠ ':'

theorem spelled_of_mem {name : List Char} (mem : name ∈ secretNames) : Spelled name := by
  rw [secretNames_eq, List.mem_cons, List.mem_singleton] at mem
  rcases mem with rfl | rfl
  · exact ⟨by decide, rfl, forall_mem_of_all (by decide)⟩
  · exact ⟨by decide, rfl, forall_mem_of_all (by decide)⟩

/-- A form writes a secret name as it is. -/
theorem encodeText_name {name : List Char} (mem : name ∈ secretNames) :
    Form.encodeText (String.ofList name) = name := by
  rw [secretNames_eq, List.mem_cons, List.mem_singleton] at mem
  rcases mem with rfl | rfl
  · rw [Form.encodeText, Utf8.encode_ascii (forall_mem_of_all (by decide))]
    decide
  · rw [Form.encodeText, Utf8.encode_ascii (forall_mem_of_all (by decide))]
    decide

@[simp] theorem redactChars_nil : redactChars [] = [] := by
  rw [redactChars]
  rfl

theorem after?_suffix {name text rest : List Char} (h : after? name text = some rest) :
    ∃ written, text = written ++ rest ∧ written.map foldCase = name := by
  induction name generalizing text with
  | nil => exact ⟨[], Option.some.inj h, rfl⟩
  | cons n name ih =>
    cases text with
    | nil => cases h
    | cons c text =>
      rw [after?] at h
      split at h
      · rename_i same
        obtain ⟨written, rfl, folded⟩ := ih h
        exact ⟨c :: written, rfl, by rw [List.map_cons, same, folded]⟩
      · cases h

/-- What may stand between a name, the sign and a value. -/
def IsGap (gap : List Char) : Prop := ∀ c ∈ gap, c = '"' ∨ isBlank c = true

theorem skipQuote_suffix (text : List Char) : ∃ gap, text = gap ++ skipQuote text ∧ IsGap gap := by
  unfold skipQuote
  split
  · exact ⟨['"'], rfl, by simp [IsGap]⟩
  · exact ⟨[], rfl, by simp [IsGap]⟩

theorem dropBlanks_suffix (text : List Char) :
    ∃ gap, text = gap ++ text.dropWhile isBlank ∧ IsGap gap :=
  ⟨text.takeWhile isBlank, List.takeWhile_append_dropWhile.symm,
    fun _ mem => .inr (List.mem_takeWhile_imp mem)⟩

theorem IsGap.append {gap gap' : List Char} (h : IsGap gap) (h' : IsGap gap') :
    IsGap (gap ++ gap') := by
  intro c mem
  rcases List.mem_append.1 mem with mem | mem
  · exact h c mem
  · exact h' c mem

/-- How a secret begins: with a name, in any case, and a sign. -/
structure Begins (written gap : List Char) (sign : Char) (gap' : List Char) : Prop where
  named : written.map foldCase ∈ secretNames
  gap : IsGap gap
  sign : sign = '=' ∨ sign = ':'
  gap' : IsGap gap'

theorem afterSign?_suffix {text rest : List Char} (h : afterSign? text = some rest) :
    ∃ gap sign gap', text = gap ++ sign :: (gap' ++ rest) ∧ IsGap gap ∧
      (sign = '=' ∨ sign = ':') ∧ IsGap gap' := by
  obtain ⟨quote, htext, hquote⟩ := skipQuote_suffix text
  obtain ⟨blanks, hblanks, blank⟩ := dropBlanks_suffix (skipQuote text)
  rw [afterSign?] at h
  split at h
  · rename_i c r found
    split at h
    · rename_i sign
      obtain ⟨blanks', hr, blank'⟩ := dropBlanks_suffix r
      obtain ⟨quote', hvalue, hquote'⟩ := skipQuote_suffix (r.dropWhile isBlank)
      rw [Option.some.inj h] at hvalue
      refine ⟨quote ++ blanks, c, blanks' ++ quote', ?_, hquote.append blank, sign,
        blank'.append hquote'⟩
      rw [List.append_assoc blanks', ← hvalue, ← hr, List.append_assoc, ← found, ← hblanks, ← htext]
    · cases h
  · cases h

theorem secretStart?_suffix {text rest : List Char} (h : secretStart? text = some rest) :
    ∃ written gap sign gap', text = written ++ gap ++ sign :: gap' ++ rest ∧
      Begins written gap sign gap' := by
  obtain ⟨behind, named, signed⟩ := Option.bind_eq_some_iff.1 h
  obtain ⟨name, mem, found⟩ := List.exists_of_findSome?_eq_some named
  obtain ⟨written, rfl, folded⟩ := after?_suffix found
  obtain ⟨gap, sign, gap', rfl, hgap, hsign, hgap'⟩ := afterSign?_suffix signed
  exact ⟨written, gap, sign, gap', by simp, folded ▸ mem, hgap, hsign, hgap'⟩

/-- Behind a name and an equals sign the value begins. -/
theorem secretStart?_name {name : List Char} (mem : name ∈ secretNames) (value : List Char) :
    secretStart? (name ++ '=' :: value) = some (skipQuote (value.dropWhile isBlank)) := by
  have signed : afterSign? ('=' :: value) = some (skipQuote (value.dropWhile isBlank)) := by
    have plain : isBlank '=' = false := by decide
    simp [afterSign?, skipQuote, plain]
  simp only [secretNames, List.mem_cons, List.not_mem_nil, or_false] at mem
  rcases mem with rfl | rfl
  · exact signed
  · exact signed

/-- Where a secret begins, its value is removed. -/
theorem redactChars_of_secret {front rest : List Char} (h : secretStart? (front ++ rest) = some rest) :
    redactChars (front ++ rest) =
      front ++ "REMOVED".toList ++ redactChars (rest.dropWhile isValueChar) := by
  rw [redactChars]
  split
  · rename_i found
    obtain rfl := Option.some.inj (found.symm.trans h)
    simp
  · rename_i found
    cases found.symm.trans h

/-- What stands between an equals sign and a value is kept. -/
theorem redactChars_name {name : List Char} (mem : name ∈ secretNames) (gap rest : List Char)
    (h : skipQuote ((gap ++ rest).dropWhile isBlank) = rest) :
    redactChars (name ++ '=' :: (gap ++ rest)) =
      name ++ '=' :: (gap ++ ("REMOVED".toList ++ redactChars (rest.dropWhile isValueChar))) := by
  have named := secretStart?_name mem (gap ++ rest)
  have shape : name ++ '=' :: (gap ++ rest) = name ++ '=' :: gap ++ rest := by simp
  rw [h, shape] at named
  rw [shape, redactChars_of_secret named]
  simp only [List.append_assoc, List.cons_append]

/-- Elsewhere a character is kept. -/
theorem redactChars_cons {c : Char} {text : List Char} (h : secretStart? (c :: text) = none) :
    redactChars (c :: text) = c :: redactChars text := by
  rw [redactChars]
  split
  · rename_i found
    cases found.symm.trans h
  · rfl

/-- A text has no secret and is kept, or the first secret in it is removed. -/
theorem redactChars_cases (text : List Char) : redactChars text = text ∨
    ∃ before written gap sign gap' rest, text = before ++ (written ++ gap ++ sign :: gap' ++ rest) ∧
      Begins written gap sign gap' ∧ redactChars text = before ++ (written ++ gap ++ sign :: gap' ++
        "REMOVED".toList ++ redactChars (rest.dropWhile isValueChar)) := by
  induction text with
  | nil => exact .inl redactChars_nil
  | cons c text ih =>
    cases h : secretStart? (c :: text) with
    | some rest =>
      obtain ⟨written, gap, sign, gap', whole, begins⟩ := secretStart?_suffix h
      rw [whole] at h ⊢
      exact .inr ⟨[], written, gap, sign, gap', rest, rfl, begins, redactChars_of_secret h⟩
    | none =>
      rw [redactChars_cons h]
      rcases ih with same | ⟨before, written, gap, sign, gap', rest, whole, begins, removed⟩
      · exact .inl (congrArg _ same)
      · refine .inr ⟨c :: before, written, gap, sign, gap', rest, ?_, begins, ?_⟩
        · rw [whole, List.cons_append]
        · rw [removed, List.cons_append]

theorem redactChars_eq_nil {text : List Char} (h : redactChars text = []) : text = [] := by
  rcases redactChars_cases text with same | ⟨before, written, gap, sign, gap', rest, -, -, removed⟩
  · rw [← same, h]
  · rw [removed] at h
    simp at h

/-- A text that is one value as a whole. -/
structure IsValue (v : List Char) : Prop where
  filled : v ≠ []
  chars : ∀ c ∈ v, isValueChar c = true

theorem dropWhile_isValueChar {v : List Char} (chars : ∀ c ∈ v, isValueChar c = true)
    (rest : List Char) : (v ++ rest).dropWhile isValueChar = rest.dropWhile isValueChar := by
  rw [List.dropWhile_append_of_pos chars]

/-- A value begins with no blank and no quote. -/
theorem IsValue.plain {v : List Char} (h : IsValue v) (rest : List Char) :
    skipQuote ((v ++ rest).dropWhile isBlank) = v ++ rest := by
  cases v with
  | nil => exact absurd rfl h.filled
  | cons c v =>
    have first := h.chars c List.mem_cons_self
    simp only [isValueChar, Bool.not_eq_true', Bool.or_eq_false_iff, beq_eq_false_iff_ne] at first
    obtain ⟨⟨⟨-, noQuote⟩, -⟩, noBlank⟩ := first
    rw [List.cons_append, List.dropWhile_cons_of_neg (by simp [noBlank])]
    unfold skipQuote
    split
    · rename_i quote
      exact absurd (List.cons.inj quote).1 noQuote
    · rfl

/-- The characters of forms belong to values. -/
theorem isValueChar_of_mem_alphabet {c : Char} (mem : c ∈ Form.alphabet) : isValueChar c = true := by
  have codes : ∀ n ∈ [0x25, 0x2B, 0x2A, 0x2D, 0x2E, 0x5F] ++ alphanumerics,
      isValueChar (Char.ofNat n) = true :=
    forall_mem_of_all (by decide)
  have own := codes c.toNat (List.mem_append.2 (Form.mem_alphabet_iff.1 mem))
  rwa [Char.ofNat_toNat] at own

/-- Redaction comes to the front of a text with nothing in hand: there no name goes on that began
before, nor what stands between a name and its value. -/
structure Apart (text : List Char) : Prop where
  unnamed : ∀ name ∈ secretNames, ∀ part, part <:+ name.tail → part ≠ [] → after? part text = none
  unsigned : ∀ c ∈ text.head?, c ≠ '"' ∧ c ≠ '=' ∧ c ≠ ':' ∧ isBlank c = false

/-- A text differs from another one while both last. -/
def differs : List Char → List Char → Bool
  | n :: name, c :: text => foldCase c != n || differs name text
  | _, _ => false

theorem after?_of_differs {name front : List Char} (h : differs name front = true)
    (rest : List Char) : after? name (front ++ rest) = none := by
  induction name generalizing front with
  | nil => cases h
  | cons n name ih =>
    cases front with
    | nil => cases h
    | cons c front =>
      rw [List.cons_append, after?]
      split
      · rename_i same
        refine ih ?_
        simpa [differs, same] using h
      · rfl

/-- It is enough to look at some characters at the front. -/
theorem apart_of_front (c : Char) (front : List Char)
    (unnamed : ∀ name ∈ secretNames, ∀ part ∈ name.tail.tails,
      part ≠ [] → differs part (c :: front) = true)
    (unsigned : c ≠ '"' ∧ c ≠ '=' ∧ c ≠ ':' ∧ isBlank c = false) (rest : List Char) :
    Apart (c :: front ++ rest) where
  unnamed name mem part suffix filled :=
    after?_of_differs (unnamed name mem part ((List.mem_tails _ _).2 suffix) filled) rest
  unsigned c' head := by
    obtain rfl := Option.some.inj head
    exact unsigned

theorem after?_append {name text : List Char}
    (h : ∀ part, part <:+ name → part ≠ [] → after? part text = none) (before : List Char) :
    after? name (before ++ text) = (after? name before).map (· ++ text) := by
  induction name generalizing before with
  | nil => rfl
  | cons n name ih =>
    cases before with
    | nil => exact h _ List.suffix_rfl (List.cons_ne_nil n name)
    | cons c before =>
      rw [List.cons_append, after?, after?]
      split
      · exact ih (fun part suffix => h part (suffix.trans (List.suffix_cons n name))) before
      · rfl

theorem dropWhile_append_of_head {p : Char → Bool} {text : List Char}
    (h : ∀ c ∈ text.head?, p c = false) (before : List Char) :
    (before ++ text).dropWhile p = before.dropWhile p ++ text := by
  rw [List.dropWhile_append]
  split
  · rename_i all
    rw [List.isEmpty_iff.1 all, List.nil_append]
    cases text with
    | nil => rfl
    | cons c text => rw [List.dropWhile_cons_of_neg (by simp [h c rfl])]
  · rfl

namespace Apart

variable {text : List Char}

theorem skipQuote_append (h : Apart text) (before : List Char) :
    skipQuote (before ++ text) = skipQuote before ++ text := by
  cases before with
  | nil =>
    cases text with
    | nil => rfl
    | cons c text =>
      have plain := (h.unsigned c rfl).1
      change skipQuote (c :: text) = c :: text
      unfold skipQuote
      split
      · rename_i quote
        exact absurd (List.cons.inj quote).1 plain
      · rfl
  | cons c before =>
    rw [List.cons_append]
    unfold skipQuote
    split
    · rename_i quote
      obtain ⟨rfl, rfl⟩ := List.cons.inj quote
      rfl
    · rename_i other
      split
      · rename_i quote
        obtain ⟨rfl, rfl⟩ := List.cons.inj quote
        exact absurd rfl (other (_ ++ text))
      · rfl

theorem dropBlanks_append (h : Apart text) (before : List Char) :
    (before ++ text).dropWhile isBlank = before.dropWhile isBlank ++ text :=
  dropWhile_append_of_head (fun c head => (h.unsigned c head).2.2.2) before

theorem afterSign?_append (h : Apart text) (before : List Char) :
    afterSign? (before ++ text) = (afterSign? before).map (· ++ text) := by
  rw [afterSign?, h.skipQuote_append, h.dropBlanks_append, afterSign?]
  cases (skipQuote before).dropWhile isBlank with
  | nil =>
    cases text with
    | nil => rfl
    | cons c text =>
      obtain ⟨-, notEq, notColon, -⟩ := h.unsigned c rfl
      simp [notEq, notColon]
  | cons c rest =>
    rw [List.cons_append]
    dsimp only
    split
    · rw [h.dropBlanks_append, h.skipQuote_append]
      rfl
    · rfl

theorem after?_append (h : Apart text) {name : List Char} (mem : name ∈ secretNames) (c : Char)
    (before : List Char) :
    after? name (c :: before ++ text) = (after? name (c :: before)).map (· ++ text) := by
  have parts := h.unnamed name mem
  cases name with
  | nil => rfl
  | cons n name =>
    rw [List.cons_append, after?, after?]
    split
    · exact Redaction.after?_append parts before
    · rfl

theorem secretStart?_append (h : Apart text) (c : Char) (before : List Char) :
    secretStart? (c :: before ++ text) = (secretStart? (c :: before)).map (· ++ text) := by
  have named : secretNames.findSome? (after? · (c :: before ++ text)) =
      (secretNames.findSome? (after? · (c :: before))).map (· ++ text) := by
    have token : "oauth_token_secret".toList ∈ secretNames := by simp [secretNames]
    have session : "oauth_session_handle".toList ∈ secretNames := by simp [secretNames]
    have first := h.after?_append token c before
    have second := h.after?_append session c before
    simp only [secretNames, List.findSome?_cons, List.findSome?_nil, first, second]
    cases after? "oauth_token_secret".toList (c :: before) with
    | some rest => rfl
    | none => cases after? "oauth_session_handle".toList (c :: before) <;> rfl
  rw [secretStart?, named, secretStart?]
  cases secretNames.findSome? (after? · (c :: before)) with
  | none => rfl
  | some behind => exact h.afterSign?_append behind

end Apart

/-- What redaction makes of a text behind a border depends on what stands before it in one respect
only: whether that ends within a value. -/
theorem redactChars_append (before : List Char) : ∃ within : Bool, ∀ text, Apart text →
    redactChars (before ++ text) =
      redactChars before ++ redactChars (if within then text.dropWhile isValueChar else text) := by
  induction length : before.length using Nat.strong_induction_on generalizing before with
  | _ n ih =>
    cases before with
    | nil => exact ⟨false, fun text _ => by simp⟩
    | cons c before =>
      cases h : secretStart? (c :: before) with
      | none =>
        obtain ⟨within, goes⟩ := ih before.length (by simp [← length]) before rfl
        refine ⟨within, fun text apart => ?_⟩
        have missed := apart.secretStart?_append c before
        rw [h] at missed
        rw [redactChars_cons h, List.cons_append, redactChars_cons (by exact missed),
          goes text apart, List.cons_append]
      | some rest =>
        obtain ⟨written, gap, sign, gap', whole, -⟩ := secretStart?_suffix h
        obtain ⟨front, hfront⟩ : ∃ front, front = written ++ gap ++ sign :: gap' := ⟨_, rfl⟩
        rw [← hfront] at whole
        have removed (text : List Char) (apart : Apart text) : redactChars (c :: before ++ text) =
            front ++ "REMOVED".toList ++ redactChars ((rest ++ text).dropWhile isValueChar) := by
          have found := apart.secretStart?_append c before
          rw [h, whole, Option.map_some, List.append_assoc] at found
          rw [whole, List.append_assoc, redactChars_of_secret found]
        have shorter : (rest.dropWhile isValueChar).length < n := by
          have kept := (List.dropWhile_suffix (l := rest) isValueChar).length_le
          have filled : 0 < front.length := by
            rw [hfront, List.length_append, List.length_cons]
            omega
          rw [← length, whole, List.length_append]
          omega
        rw [whole] at h
        cases value : rest.dropWhile isValueChar with
        | nil =>
          -- The value lasts to the border, and may go on behind it.
          refine ⟨true, fun text apart => ?_⟩
          have across : (rest ++ text).dropWhile isValueChar = text.dropWhile isValueChar := by
            rw [List.dropWhile_append, value]
            rfl
          rw [removed text apart, across, whole, redactChars_of_secret h, value, redactChars_nil,
            List.append_nil]
          rfl
        | cons d later =>
          rw [value] at shorter
          obtain ⟨within, goes⟩ := ih _ shorter (d :: later) rfl
          refine ⟨within, fun text apart => ?_⟩
          have inside : (rest ++ text).dropWhile isValueChar = d :: later ++ text := by
            rw [List.dropWhile_append, value]
            rfl
          rw [removed text apart, inside, goes text apart, whole, redactChars_of_secret h, value,
            List.append_assoc _ (redactChars (d :: later))]

/-- Characters with which no secret name begins are kept, if that can be told from them alone. -/
theorem redactChars_front (front : List Char)
    (kept : ∀ part ∈ front.tails, part ≠ [] → ∀ name ∈ secretNames, differs name part = true)
    (rest : List Char) : redactChars (front ++ rest) = front ++ redactChars rest := by
  induction front with
  | nil => rfl
  | cons c front ih =>
    have none : secretStart? (c :: (front ++ rest)) = none := by
      have unnamed : secretNames.findSome? (after? · (c :: (front ++ rest))) = none := by
        rw [List.findSome?_eq_none_iff]
        intro name mem
        exact after?_of_differs (kept (c :: front) (by simp) (by simp) name mem) rest
      rw [secretStart?, unnamed]
      rfl
    rw [List.cons_append, redactChars_cons none, ih fun part mem => kept part (by simp [mem])]
    rfl

theorem apart_ampersand (text : List Char) : Apart ('&' :: text) :=
  apart_of_front '&' [] (by rw [secretNames_eq]; decide) (by decide) text

theorem redactChars_append_ampersand (before after : List Char) :
    redactChars (before ++ '&' :: after) = redactChars before ++ '&' :: redactChars after := by
  have border : redactChars ('&' :: after) = '&' :: redactChars after :=
    redactChars_front ['&'] (by rw [secretNames_eq]; decide) after
  obtain ⟨within, goes⟩ := redactChars_append before
  rw [goes _ (apart_ampersand after)]
  cases within with
  | true => rw [if_pos rfl, List.dropWhile_cons_of_neg (by decide), border]
  | false => rw [if_neg (by decide), border]

/-- What redaction leaves was there, or is part of what stands in place of a value. -/
theorem mem_redactChars {text : List Char} {c : Char} (mem : c ∈ redactChars text) :
    c ∈ text ∨ c ∈ "REMOVED".toList := by
  induction length : text.length using Nat.strong_induction_on generalizing text with
  | _ n ih =>
    rcases redactChars_cases text with same | ⟨before, written, gap, sign, gap', rest, whole, -, removed⟩
    · exact .inl (same ▸ mem)
    · have shorter : (rest.dropWhile isValueChar).length < n := by
        have kept := (List.dropWhile_suffix (l := rest) isValueChar).length_le
        rw [← length, whole]
        simp only [List.length_append, List.length_cons]
        omega
      have inRest {d : Char} (inside : d ∈ rest.dropWhile isValueChar) : d ∈ text := by
        rw [whole]
        exact List.mem_append_right _ (List.mem_append_right _
          ((List.dropWhile_suffix isValueChar).subset inside))
      rw [removed, List.mem_append, List.mem_append, List.mem_append] at mem
      rcases mem with mem | ((mem | mem) | mem)
      · rw [whole]
        exact .inl (List.mem_append_left _ mem)
      · rw [whole]
        exact .inl (List.mem_append_right _ (List.mem_append_left _ mem))
      · exact .inr mem
      · exact (ih _ shorter mem rfl).imp_left inRest

/-- The segments of a text are redacted one by one. -/
theorem pieces_redactChars (text : List Char) :
    pieces (· == '&') (redactChars text) = (pieces (· == '&') text).map redactChars := by
  have whole {segment : List Char} (free : '&' ∉ segment) :
      ∀ c ∈ segment, (c == '&') = false := by
    intro c mem
    rw [beq_eq_false_iff_ne]
    rintro rfl
    exact free mem
  have kept {segment : List Char} (free : '&' ∉ segment) : '&' ∉ redactChars segment := by
    intro mem
    rcases mem_redactChars mem with mem | mem
    · exact free mem
    · exact absurd mem (by decide)
  induction length : text.length using Nat.strong_induction_on generalizing text with
  | _ n ih =>
    by_cases separated : '&' ∈ text
    · obtain ⟨segment, rest, rfl, free⟩ := List.eq_append_cons_of_mem separated
      have shorter : rest.length < n := by
        rw [← length, List.length_append, List.length_cons]
        omega
      rw [redactChars_append_ampersand, pieces_append_cons _ (whole (kept free)) (by rfl),
        pieces_append_cons _ (whole free) (by rfl), ih _ shorter rest rfl, List.map_cons]
    · rw [pieces_of_forall_not _ (whole (kept separated)), pieces_of_forall_not _ (whole separated),
        List.map_singleton]

end DelegatedFetch.Redaction
