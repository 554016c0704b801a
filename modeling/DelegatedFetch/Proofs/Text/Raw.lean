import DelegatedFetch.Proofs.Text.Escapes

/-!
# Reading any text as a form

A form need not come from a writer of forms. Any text is read as one: what
separates pairs, and names from values, is the same whether looked for among the
characters or among their bytes. Names and values are then read character by
character, escapes aside. A character that neither begins an escape nor belongs to
one stands for itself, and what is before it is read as if nothing followed.
-/

namespace DelegatedFetch

open Utf8

namespace Utf8

theorem le_toNat_marked {x : Nat} (mark : Nat) (h : x + mark < 256) :
    mark ≤ (UInt8.ofNat (x + mark)).toNat := by
  rw [toNat_marked h]
  omega

/-- Other characters have no byte that an ASCII character has, and begin with one that does not
continue a character. -/
theorem utf8EncodeChar_large {c : Char} (large : 0x80 ≤ c.toNat) :
    ∃ a tail, String.utf8EncodeChar c = a :: tail ∧ 0xC0 ≤ a.toNat ∧ ∀ b ∈ tail, 0x80 ≤ b.toNat := by
  have one : ¬ c.val.toNat ≤ 0x7F := Nat.not_le_of_lt large
  unfold String.utf8EncodeChar
  by_cases two : c.val.toNat ≤ 0x7FF
  · refine ⟨_, _, by rw [if_neg one, if_pos two], le_toNat_marked _ (by omega), ?_⟩
    simp only [List.mem_cons, List.not_mem_nil, or_false]
    rintro b rfl
    exact le_toNat_marked _ (by omega)
  by_cases three : c.val.toNat ≤ 0xFFFF
  · refine ⟨_, _, by rw [if_neg one, if_neg two, if_pos three],
      Nat.le_trans (by decide) (le_toNat_marked 0xE0 (by omega)), ?_⟩
    simp only [List.mem_cons, List.not_mem_nil, or_false]
    rintro b (rfl | rfl)
    · exact le_toNat_marked _ (by omega)
    · exact le_toNat_marked _ (by omega)
  · refine ⟨_, _, by rw [if_neg one, if_neg two, if_neg three],
      Nat.le_trans (by decide) (le_toNat_marked 0xF0 (by omega)), ?_⟩
    simp only [List.mem_cons, List.not_mem_nil, or_false]
    rintro b (rfl | rfl | rfl)
    · exact le_toNat_marked _ (by omega)
    · exact le_toNat_marked _ (by omega)
    · exact le_toNat_marked _ (by omega)

theorem toNat_ofNat_ascii {n : Nat} (ascii : n < 0x80) : (UInt8.ofNat n).toNat = n :=
  UInt8.toNat_ofNat_of_lt' (Nat.lt_trans ascii (by decide))

/-- No character has the byte of another that is ASCII. -/
theorem ne_of_mem_utf8EncodeChar {c d : Char} (ascii : d.toNat < 0x80) (h : c ≠ d) {b : UInt8}
    (mem : b ∈ String.utf8EncodeChar c) : b ≠ UInt8.ofNat d.toNat := by
  have value := toNat_ofNat_ascii ascii
  rintro rfl
  by_cases small : c.toNat < 0x80
  · rw [utf8EncodeChar_ascii small, List.mem_singleton] at mem
    have same : c.toNat = d.toNat := by
      rw [← toNat_ofNat_ascii small, ← mem, value]
    exact h (by rw [← Char.ofNat_toNat c, same, Char.ofNat_toNat])
  · obtain ⟨a, tail, written, first, others⟩ := utf8EncodeChar_large (Nat.le_of_not_lt small)
    rw [written, List.mem_cons] at mem
    rcases mem with mem | mem
    · rw [← mem] at first
      omega
    · have := others _ mem
      omega

end Utf8

section Cutting

variable {α : Type} {p : α → Bool} {xs rest : List α}

theorem pieces_append_of_forall_not (h : ∀ x ∈ xs, p x = false) {y : List α} {ys : List (List α)}
    (split : pieces p rest = y :: ys) : pieces p (xs ++ rest) = (xs ++ y) :: ys := by
  induction xs with
  | nil => exact split
  | cons x xs ih =>
    exact pieces_cons_of_not p (h x List.mem_cons_self)
      (ih fun y mem => h y (List.mem_cons_of_mem x mem))

theorem cut?_append_of_forall_not (h : ∀ x ∈ xs, p x = false) :
    cut? p (xs ++ rest) = (cut? p rest).map fun (a, b) => (xs ++ a, b) := by
  induction xs with
  | nil => simp
  | cons x xs ih =>
    rw [List.cons_append, cut?, h x List.mem_cons_self,
      ih fun y mem => h y (List.mem_cons_of_mem x mem)]
    cases cut? p rest <;> rfl

variable {d : Char} (ascii : d.toNat < 0x80)
include ascii

theorem pieces_flatMap (cs : List Char) :
    pieces (· == UInt8.ofNat d.toNat) (cs.flatMap String.utf8EncodeChar) =
      (pieces (· == d) cs).map (·.flatMap String.utf8EncodeChar) := by
  induction cs with
  | nil => rfl
  | cons c cs ih =>
    rw [List.flatMap_cons]
    by_cases own : c = d
    · subst own
      rw [utf8EncodeChar_ascii ascii, List.singleton_append]
      simp [pieces, ih]
    · have apart : ∀ b ∈ String.utf8EncodeChar c, (b == UInt8.ofNat d.toNat) = false :=
        fun b mem => beq_false_of_ne (ne_of_mem_utf8EncodeChar ascii own mem)
      cases split : pieces (· == d) cs with
      | nil => exact absurd split (pieces_ne_nil _ cs)
      | cons y ys =>
        rw [split, List.map_cons] at ih
        rw [pieces_append_of_forall_not apart ih, pieces_cons_of_not (· == d) (beq_false_of_ne own) split]
        simp

theorem cut?_flatMap (cs : List Char) :
    cut? (· == UInt8.ofNat d.toNat) (cs.flatMap String.utf8EncodeChar) =
      (cut? (· == d) cs).map fun (a, b) =>
        (a.flatMap String.utf8EncodeChar, b.flatMap String.utf8EncodeChar) := by
  induction cs with
  | nil => rfl
  | cons c cs ih =>
    rw [List.flatMap_cons]
    by_cases own : c = d
    · subst own
      rw [utf8EncodeChar_ascii ascii, List.singleton_append]
      simp [cut?]
    · have apart : ∀ b ∈ String.utf8EncodeChar c, (b == UInt8.ofNat d.toNat) = false :=
        fun b mem => beq_false_of_ne (ne_of_mem_utf8EncodeChar ascii own mem)
      rw [cut?_append_of_forall_not apart, ih, cut?, beq_false_of_ne own]
      cases cut? (· == d) cs <;> simp

theorem cut_flatMap (cs : List Char) :
    cut (· == UInt8.ofNat d.toNat) (cs.flatMap String.utf8EncodeChar) =
      ((cut (· == d) cs).1.flatMap String.utf8EncodeChar,
        (cut (· == d) cs).2.flatMap String.utf8EncodeChar) := by
  rw [cut, cut?_flatMap ascii, cut]
  cases cut? (· == d) cs <;> rfl

end Cutting

namespace Form

/-- What the characters of a name or of a value are read as. -/
def readText (cs : List Char) : List Char :=
  lossyChars (Percent.decodeBytes (spaced (cs.flatMap String.utf8EncodeChar)))

/-- The name and the value in the characters between two ampersands. -/
def readPair (segment : List Char) : String × String :=
  (String.ofList (readText (cut (· == '=') segment).1),
    String.ofList (readText (cut (· == '=') segment).2))

theorem decodePair_flatMap (segment : List Char) :
    decodePair (segment.flatMap String.utf8EncodeChar) = readPair segment := by
  have split := cut_flatMap (d := '=') (by decide) segment
  change cut (· == 0x3D) _ = _ at split
  rw [decodePair, split]
  rfl

theorem readText_nil : readText [] = [] := by
  simp [readText, spaced, Percent.decodeBytes, lossyChars]

/-- A text that is read as a form has the pairs that are written between its ampersands. -/
theorem mem_parse_iff {s name value : String} :
    (name, value) ∈ parse (Utf8.encode s) ↔
      name ≠ "" ∧ ∃ segment ∈ pieces (· == '&') s.toList, readPair segment = (name, value) := by
  have split := pieces_flatMap (d := '&') (by decide) s.toList
  change pieces (· == 0x26) _ = _ at split
  rw [parse, parseQuery, Utf8.encode, split, List.mem_filter, List.mem_map]
  constructor
  · rintro ⟨⟨bytes, mem, read⟩, named⟩
    obtain ⟨segment, inside, rfl⟩ := List.mem_map.1 (List.mem_filter.1 mem).1
    exact ⟨bne_iff_ne.1 named, segment, inside, (decodePair_flatMap segment).symm.trans read⟩
  · rintro ⟨named, segment, inside, read⟩
    refine ⟨⟨_, List.mem_filter.2 ⟨List.mem_map_of_mem inside, ?_⟩,
      (decodePair_flatMap segment).trans read⟩, bne_iff_ne.2 named⟩
    cases segment with
    | nil =>
      have empty : readPair [] = ("", "") := by simp [readPair, cut, cut?, readText_nil]
      exact absurd (congrArg Prod.fst (read.symm.trans empty)) named
    | cons c segment => simp

/-- A text that is written for a form is read again. -/
theorem readText_encodeText (s : String) : readText (encodeText s) = s.toList := by
  have bytes : (encodeText s).flatMap String.utf8EncodeChar = asciiBytes (encodeText s) := by
    rw [← encode_ascii fun c mem => ascii_of_mem_alphabet c (mem_encodeText mem), Utf8.encode,
      String.toList_ofList]
  have read := congrArg String.toList (decodeText_encodeText s)
  rw [← bytes] at read
  exact String.toList_ofList.symm.trans read

/-- A character that begins no escape, stands for no blank and is no digit of an escape. -/
def Breaks (c : Char) : Prop := c ≠ '%' ∧ c ≠ '+' ∧ Hex.charValue? c = none

instance (c : Char) : Decidable (Breaks c) := inferInstanceAs (Decidable (_ ∧ _ ∧ _))

/-- Characters that are not ASCII are such. -/
theorem breaks_of_ascii {P : Char → Prop}
    (h : ∀ n < 0x80, P (Char.ofNat n) → Breaks (Char.ofNat n)) {c : Char} (own : P c) : Breaks c := by
  by_cases small : c.toNat < 0x80
  · have breaks := h c.toNat small
    rw [Char.ofNat_toNat] at breaks
    exact breaks own
  · refine ⟨?_, ?_, if_neg small⟩
    · rintro rfl
      exact small (by decide)
    · rintro rfl
      exact small (by decide)

theorem decodeBytes_append_of_forall {bs : Bytes} (h : ∀ b ∈ bs, b ≠ 0x25) (rest : Bytes) :
    Percent.decodeBytes (bs ++ rest) = bs ++ Percent.decodeBytes rest := by
  induction bs with
  | nil => rfl
  | cons b bs ih =>
    rw [List.cons_append, Percent.decodeBytes_cons (h b List.mem_cons_self),
      ih fun c mem => h c (List.mem_cons_of_mem b mem)]
    rfl

/-- The bytes of a character that is no escape sign and no plus sign are read as they are. -/
theorem decodeBytes_utf8EncodeChar {c : Char} (escape : c ≠ '%') (plus : c ≠ '+') (rest : Bytes) :
    Percent.decodeBytes (spaced (String.utf8EncodeChar c ++ rest)) =
      String.utf8EncodeChar c ++ Percent.decodeBytes (spaced rest) := by
  have noPlus : spaced (String.utf8EncodeChar c) = String.utf8EncodeChar c :=
    spaced_eq_self fun b mem => ne_of_mem_utf8EncodeChar (d := '+') (by decide) plus mem
  rw [spaced_append, noPlus]
  exact decodeBytes_append_of_forall
    (fun b mem => ne_of_mem_utf8EncodeChar (d := '%') (by decide) escape mem) _

theorem readText_cons {c : Char} (escape : c ≠ '%') (plus : c ≠ '+') (cs : List Char) :
    readText (c :: cs) = c :: readText cs := by
  rw [readText, List.flatMap_cons, decodeBytes_utf8EncodeChar escape plus, lossyChars_append_char]
  rfl

theorem decodeBytes_cons_of_second {b : UInt8} (h : Hex.value? b = none) (a : UInt8)
    (rest : Bytes) : Percent.decodeBytes (a :: b :: rest) = a :: Percent.decodeBytes (b :: rest) := by
  cases rest with
  | nil => rfl
  | cons c rest => simp [Percent.decodeBytes, h]

theorem decodeBytes_cons_of_third {b : UInt8} (h : Hex.value? b = none) (a c : UInt8)
    (rest : Bytes) :
    Percent.decodeBytes (a :: c :: b :: rest) = a :: c :: Percent.decodeBytes (b :: rest) := by
  rw [← decodeBytes_cons_of_second h]
  simp [Percent.decodeBytes, h]

/-- No escape goes on across a byte that is not a digit. -/
theorem decodeBytes_append {b : UInt8} (h : Hex.value? b = none) (before rest : Bytes) :
    Percent.decodeBytes (before ++ b :: rest) =
      Percent.decodeBytes before ++ Percent.decodeBytes (b :: rest) := by
  fun_induction Percent.decodeBytes before with
  | case1 c d before x y low high ih =>
    rw [List.cons_append, List.cons_append, List.cons_append, Percent.decodeBytes, if_pos rfl, high,
      low]
    exact congrArg _ ih
  | case2 c d before incomplete ih =>
    rw [List.cons_append, List.cons_append, List.cons_append, Percent.decodeBytes, if_pos rfl]
    split
    · rename_i x y high low
      exact (incomplete x y high low).elim
    · exact congrArg _ ih
  | case3 a c d before other ih =>
    rw [List.cons_append, Percent.decodeBytes_cons other]
    exact congrArg _ ih
  | case4 short few =>
    rcases short with _ | ⟨a, _ | ⟨c, _ | ⟨d, short⟩⟩⟩
    · rfl
    · exact decodeBytes_cons_of_second h a rest
    · exact decodeBytes_cons_of_third h a c rest
    · exact (few a c d short rfl).elim

/-- The first byte of such a character belongs to nothing before it. -/
theorem utf8EncodeChar_of_breaks {c : Char} (breaks : Breaks c) :
    ∃ a tail, String.utf8EncodeChar c = a :: tail ∧ Hex.value? a = none ∧ isTail a = false := by
  by_cases small : c.toNat < 0x80
  · have value := toNat_ofNat_ascii small
    refine ⟨_, [], utf8EncodeChar_ascii small, ?_, ?_⟩
    · have digit := breaks.2.2
      rwa [Hex.charValue?, if_pos small] at digit
    · simp only [isTail, Bool.and_eq_false_iff, decide_eq_false_iff_not, UInt8.le_iff_toNat_le, value,
        UInt8.reduceToNat]
      omega
  · obtain ⟨a, tail, written, first, -⟩ := utf8EncodeChar_large (Nat.le_of_not_lt small)
    refine ⟨a, tail, written, ?_, ?_⟩
    · have high (n : UInt8) (small : n.toNat < 0xC0) : ¬ a ≤ n := by
        rw [UInt8.le_iff_toNat_le]
        omega
      simp [Hex.value?, high 57 (by decide), high 70 (by decide), high 102 (by decide)]
    · simp only [isTail, Bool.and_eq_false_iff, decide_eq_false_iff_not, UInt8.le_iff_toNat_le,
        UInt8.reduceToNat]
      omega

theorem readText_append {c : Char} (breaks : Breaks c) (before cs : List Char) :
    readText (before ++ c :: cs) = readText before ++ readText (c :: cs) := by
  obtain ⟨a, tail, written, digit, tailed⟩ := utf8EncodeChar_of_breaks breaks
  have bytes := decodeBytes_utf8EncodeChar breaks.1 breaks.2.1 (cs.flatMap String.utf8EncodeChar)
  obtain ⟨rest, first⟩ : ∃ rest,
      spaced (String.utf8EncodeChar c ++ cs.flatMap String.utf8EncodeChar) = a :: rest := by
    have own : a ≠ 0x2B :=
      ne_of_mem_utf8EncodeChar (d := '+') (by decide) breaks.2.1 (written ▸ List.mem_cons_self)
    refine ⟨spaced (tail ++ cs.flatMap String.utf8EncodeChar), ?_⟩
    rw [written, List.cons_append, spaced, List.map_cons, if_neg own]
    rfl
  rw [readText, List.flatMap_append, spaced_append, List.flatMap_cons, first,
    decodeBytes_append digit, ← first, bytes, written, List.cons_append, lossyChars_append tailed,
    readText, readText, List.flatMap_cons, bytes, written, List.cons_append]

theorem mem_readText {c : Char} (breaks : Breaks c) {cs : List Char} (mem : c ∈ cs) :
    c ∈ readText cs := by
  obtain ⟨before, after, rfl⟩ := List.append_of_mem mem
  rw [readText_append breaks, readText_cons breaks.1 breaks.2.1]
  exact List.mem_append_right _ List.mem_cons_self

theorem readText_eq_self {cs : List Char} (h : ∀ c ∈ cs, c ≠ '%' ∧ c ≠ '+') (rest : List Char) :
    readText (cs ++ rest) = cs ++ readText rest := by
  induction cs with
  | nil => rfl
  | cons c cs ih =>
    obtain ⟨escape, plus⟩ := h c List.mem_cons_self
    rw [List.cons_append, readText_cons escape plus, ih fun d mem => h d (List.mem_cons_of_mem c mem)]
    rfl

/-- Something is read as something. -/
theorem readText_eq_nil {cs : List Char} (h : readText cs = []) : cs = [] := by
  have chars {bs : Bytes} (h : lossyChars bs = []) : bs = [] := by
    cases bs with
    | nil => rfl
    | cons b bs =>
      rw [lossyChars] at h
      cases h
  have bytes {bs : Bytes} (h : Percent.decodeBytes bs = []) : bs = [] := by
    unfold Percent.decodeBytes at h
    repeat' split at h
    · cases h
    · cases h
    · cases h
    · exact h
  have codes := List.map_eq_nil_iff.1 (bytes (chars h))
  cases cs with
  | nil => rfl
  | cons c cs => simp at codes

end Form
end DelegatedFetch
