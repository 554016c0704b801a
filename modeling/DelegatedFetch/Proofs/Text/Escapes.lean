import DelegatedFetch.Proofs.Text.Utf8
import DelegatedFetch.Text.Form

/-!
# Reading back escapes

A text that is escaped for a signature or for a form has ASCII characters of a
small alphabet only, and none of those that separate names from values and
pairs from each other. Reading it gives the text back. Both are facts about
single bytes, their halves and their characters, and follow for texts by
induction.
-/

namespace DelegatedFetch

open Utf8

theorem forall_byte_lt {P : UInt8 → Prop} {k : Nat} (h : ∀ n < k, P (UInt8.ofNat n)) {b : UInt8}
    (small : b.toNat < k) : P b := by
  have value := h b.toNat small
  rwa [UInt8.ofNat_toNat] at value

/-- What is checked of each element holds of all. -/
theorem forall_mem_of_all {α : Type} {P : α → Prop} [DecidablePred P] {l : List α}
    (h : (l.all fun x => P x) = true) : ∀ x ∈ l, P x :=
  fun x mem => of_decide_eq_true (List.all_eq_true.1 h x mem)

theorem toNat_halves (b : UInt8) :
    (b >>> 4).toNat = b.toNat / 16 ∧ (b &&& 15).toNat = b.toNat % 16 := by
  constructor
  · rw [UInt8.toNat_shiftRight]
    exact Nat.shiftRight_eq_div_pow _ 4
  · rw [UInt8.toNat_and]
    exact Nat.and_two_pow_sub_one_eq_mod _ 4

/-- The halves of a byte are values of digits. -/
theorem halves_lt (b : UInt8) : (b >>> 4).toNat < 16 ∧ (b &&& 15).toNat < 16 := by
  obtain ⟨high, low⟩ := toNat_halves b
  have small := UInt8.toNat_lt b
  omega

/-- The halves of a byte make it up. -/
theorem halves (b : UInt8) : (b >>> 4) <<< 4 ||| (b &&& 15) = b := by
  obtain ⟨high, low⟩ := toNat_halves b
  have small := UInt8.toNat_lt b
  have shifted : ((b >>> 4) <<< 4).toNat = (b.toNat / 16) <<< 4 := by
    rw [UInt8.toNat_shiftLeft, high]
    refine Nat.mod_eq_of_lt ?_
    change (b.toNat / 16) <<< 4 < _
    rw [Nat.shiftLeft_eq]
    omega
  rw [← UInt8.toNat_inj, UInt8.toNat_or, shifted, low,
    ← Nat.shiftLeft_add_eq_or_of_lt (Nat.mod_lt _ (by decide)), Nat.shiftLeft_eq]
  omega

theorem toNat_ofNat_char {n : Nat} (small : n < 256) : (Char.ofNat n).toNat = n := by
  have valid : n.isValidChar := .inl (by omega)
  rw [Char.ofNat, dif_pos valid]
  rfl

/-- A byte is the code of the character that is made of it. -/
theorem toNat_char (b : UInt8) : (Char.ofNat b.toNat).toNat = b.toNat :=
  toNat_ofNat_char (UInt8.toNat_lt b)

/-- The codes of digits and letters. -/
def alphanumerics : List Nat := List.range' 48 10 ++ List.range' 65 26 ++ List.range' 97 26

theorem mem_alphanumerics {n : Nat} :
    n ∈ alphanumerics ↔ 48 ≤ n ∧ n ≤ 57 ∨ 65 ≤ n ∧ n ≤ 90 ∨ 97 ≤ n ∧ n ≤ 122 := by
  simp only [alphanumerics, List.mem_append, List.mem_range'_1]
  omega

/-- A character is one of some signs, digits and letters if its code is one of theirs. -/
theorem mem_signs_iff {signs : List Nat} (small : ∀ n ∈ signs, n < 0x80) {c : Char} :
    c ∈ (signs ++ alphanumerics).map Char.ofNat ↔ c.toNat ∈ signs ∨ c.toNat ∈ alphanumerics := by
  rw [← List.mem_append]
  constructor
  · intro mem
    obtain ⟨n, own, rfl⟩ := List.mem_map.1 mem
    have code : n < 256 := by
      rcases List.mem_append.1 own with sign | letter
      · have := small n sign
        omega
      · have := mem_alphanumerics.1 letter
        omega
    rwa [toNat_ofNat_char code]
  · intro mem
    exact List.mem_map.2 ⟨c.toNat, mem, Char.ofNat_toNat c⟩

namespace Percent

theorem isAlphanumeric_iff {b : UInt8} : isAlphanumeric b = true ↔ b.toNat ∈ alphanumerics := by
  simp only [isAlphanumeric, Bool.or_eq_true, between_iff, mem_alphanumerics, or_assoc]
  rfl

/-- The characters of escaped texts. -/
def alphabet : List Char :=
  "%-._~0123456789ABCDEFGHIJKLMNOPQRSTUVWXYZabcdefghijklmnopqrstuvwxyz".toList

theorem mem_alphabet_iff {c : Char} :
    c ∈ alphabet ↔ c.toNat ∈ [0x25, 0x2D, 0x2E, 0x5F, 0x7E] ∨ c.toNat ∈ alphanumerics := by
  -- Not by evaluation, which would decode the text from its bytes.
  have codes : alphabet = ([0x25, 0x2D, 0x2E, 0x5F, 0x7E] ++ alphanumerics).map Char.ofNat :=
    String.toList_ofList
  rw [codes]
  exact mem_signs_iff (by decide)

theorem ascii_of_mem_alphabet : ∀ c ∈ alphabet, c.toNat < 0x80 := by
  intro c mem
  have small : ∀ n ∈ [0x25, 0x2D, 0x2E, 0x5F, 0x7E], n < 0x80 := by decide
  rcases mem_alphabet_iff.1 mem with sign | letter
  · exact small _ sign
  · have := mem_alphanumerics.1 letter
    omega

/-- The characters of escapes. -/
def escapeSigns : List Char := "%0123456789ABCDEF".toList

theorem mem_escapeSigns_of_mem_escape {b : UInt8} {c : Char} (h : c ∈ escape b) :
    c ∈ escapeSigns := by
  have digit {d : UInt8} (small : d.toNat < 16) : Hex.upperDigit d ∈ escapeSigns :=
    forall_byte_lt (P := fun d => Hex.upperDigit d ∈ escapeSigns) (by decide) small
  obtain ⟨high, low⟩ := halves_lt b
  rw [escape, List.mem_cons, List.mem_cons, List.mem_singleton] at h
  rcases h with rfl | rfl | rfl
  · exact List.mem_cons_self
  · exact digit high
  · exact digit low

theorem code_of_mem_escapeSigns :
    ∀ c ∈ escapeSigns, c.toNat = 0x25 ∨ c.toNat ∈ alphanumerics := by
  have codes : escapeSigns = ([0x25] ++ List.range' 48 10 ++ List.range' 65 6).map Char.ofNat :=
    String.toList_ofList
  intro c mem
  rw [codes] at mem
  obtain ⟨n, own, rfl⟩ := List.mem_map.1 mem
  simp only [List.mem_append, List.mem_singleton, List.mem_range'_1] at own
  rw [toNat_ofNat_char (by omega), mem_alphanumerics]
  omega

theorem mem_alphabet_of_mem_escape {b : UInt8} {c : Char} (h : c ∈ escape b) : c ∈ alphabet := by
  rcases code_of_mem_escapeSigns c (mem_escapeSigns_of_mem_escape h) with sign | letter
  · rw [mem_alphabet_iff, sign]
    exact .inl (by decide)
  · exact mem_alphabet_iff.2 (.inr letter)

theorem unreserved_mem_alphabet (b : UInt8) (h : isUnreserved b = true) :
    Char.ofNat b.toNat ∈ alphabet := by
  rw [mem_alphabet_iff, toNat_char]
  simp only [isUnreserved, Bool.or_eq_true, isAlphanumeric_iff, beq_iff_eq] at h
  rcases h with (((letter | rfl) | rfl) | rfl) | rfl
  · exact .inr letter
  all_goals exact .inl (by decide)

theorem mem_encode {s : String} {c : Char} (h : c ∈ (encode s).toList) : c ∈ alphabet := by
  rw [encode, String.toList_ofList, encodeKeeping, List.mem_flatMap] at h
  obtain ⟨b, -, hb⟩ := h
  split at hb
  · rename_i kept
    rw [List.mem_singleton] at hb
    exact hb ▸ unreserved_mem_alphabet b kept
  · exact mem_alphabet_of_mem_escape hb

theorem decodeBytes_cons {b : UInt8} (h : b ≠ 0x25) (rest : Bytes) :
    decodeBytes (b :: rest) = b :: decodeBytes rest := by
  match rest with
  | [] => rfl
  | [_] => rfl
  | _ :: _ :: _ => rw [decodeBytes, if_neg h]

theorem value?_escape (b : UInt8) :
    Hex.value? (UInt8.ofNat (Hex.upperDigit (b >>> 4)).toNat) = some (b >>> 4) ∧
      Hex.value? (UInt8.ofNat (Hex.upperDigit (b &&& 15)).toNat) = some (b &&& 15) := by
  have digit {d : UInt8} (small : d.toNat < 16) :
      Hex.value? (UInt8.ofNat (Hex.upperDigit d).toNat) = some d :=
    forall_byte_lt (P := fun d => Hex.value? (UInt8.ofNat (Hex.upperDigit d).toNat) = some d)
      (by decide) small
  exact ⟨digit (halves_lt b).1, digit (halves_lt b).2⟩

theorem decodeBytes_escape (b : UInt8) (rest : Bytes) :
    decodeBytes (asciiBytes (escape b) ++ rest) = b :: decodeBytes rest := by
  obtain ⟨high, low⟩ := value?_escape b
  change decodeBytes (0x25 :: _ :: _ :: rest) = _
  rw [decodeBytes, if_pos rfl, high, low]
  simp only [halves]

/-- Bytes are read back when those that are kept are ASCII and no escape sign. -/
theorem decodeBytes_encodeKeeping {keep : UInt8 → Bool}
    (kept : ∀ b, keep b = true → b ≠ 0x25 ∧ UInt8.ofNat (Char.ofNat b.toNat).toNat = b)
    (bs rest : Bytes) :
    decodeBytes (asciiBytes (encodeKeeping keep bs) ++ rest) = bs ++ decodeBytes rest := by
  induction bs with
  | nil => rfl
  | cons b bs ih =>
    rw [encodeKeeping, List.flatMap_cons, asciiBytes_append, List.append_assoc]
    change decodeBytes (_ ++ (asciiBytes (encodeKeeping keep bs) ++ rest)) = _
    by_cases h : keep b = true
    · simp only [h, if_true, asciiBytes, List.map_cons, List.map_nil, (kept b h).2]
      exact (decodeBytes_cons (kept b h).1 _).trans (congrArg (b :: ·) ih)
    · simp only [h]
      exact (decodeBytes_escape b _).trans (congrArg (b :: ·) ih)

theorem unreserved_kept (b : UInt8) (h : isUnreserved b = true) :
    b ≠ 0x25 ∧ UInt8.ofNat (Char.ofNat b.toNat).toNat = b := by
  refine ⟨?_, ?_⟩
  · rintro rfl
    exact absurd h (by decide)
  · rw [toNat_char, UInt8.ofNat_toNat]

/-- Reading inverts escaping. -/
@[simp] theorem decode_encode (s : String) : decode (encode s) = s := by
  have ascii : ∀ c ∈ encodeKeeping isUnreserved (Utf8.encode s), c.toNat < 0x80 := by
    intro c hc
    refine ascii_of_mem_alphabet c (mem_encode (s := s) ?_)
    rwa [encode, String.toList_ofList]
  have read := decodeBytes_encodeKeeping unreserved_kept (Utf8.encode s) []
  rw [List.append_nil, show decodeBytes [] = [] from rfl, List.append_nil] at read
  rw [decode, encode, encode_ascii ascii, read, decodeLossy_encode]

end Percent

namespace Form

/-- The characters of forms within names and values. -/
def alphabet : List Char :=
  "%+*-._0123456789ABCDEFGHIJKLMNOPQRSTUVWXYZabcdefghijklmnopqrstuvwxyz".toList

theorem mem_alphabet_iff {c : Char} :
    c ∈ alphabet ↔ c.toNat ∈ [0x25, 0x2B, 0x2A, 0x2D, 0x2E, 0x5F] ∨ c.toNat ∈ alphanumerics := by
  have codes : alphabet =
      ([0x25, 0x2B, 0x2A, 0x2D, 0x2E, 0x5F] ++ alphanumerics).map Char.ofNat :=
    String.toList_ofList
  rw [codes]
  exact mem_signs_iff (by decide)

/-- No character of a form is a sign that separates names and values, and all are ASCII. -/
theorem code_of_mem_alphabet {c : Char} (h : c ∈ alphabet) :
    c.toNat < 0x80 ∧ c.toNat ≠ 0x26 ∧ c.toNat ≠ 0x3D := by
  have signs : ∀ n ∈ [0x25, 0x2B, 0x2A, 0x2D, 0x2E, 0x5F], n < 0x80 ∧ n ≠ 0x26 ∧ n ≠ 0x3D := by
    decide
  rcases mem_alphabet_iff.1 h with sign | letter
  · exact signs _ sign
  · have := mem_alphanumerics.1 letter
    omega

theorem ascii_of_mem_alphabet : ∀ c ∈ alphabet, c.toNat < 0x80 :=
  fun _ mem => (code_of_mem_alphabet mem).1

theorem kept_mem_alphabet (b : UInt8) (h : isKept b = true) : Char.ofNat b.toNat ∈ alphabet := by
  rw [mem_alphabet_iff, toNat_char]
  simp only [isKept, Bool.or_eq_true, Percent.isAlphanumeric_iff, beq_iff_eq] at h
  rcases h with (((letter | rfl) | rfl) | rfl) | rfl
  · exact .inr letter
  all_goals exact .inl (by decide)

theorem mem_alphabet_of_mem_encodeByte {b : UInt8} {c : Char} (h : c ∈ encodeByte b) :
    c ∈ alphabet := by
  rw [encodeByte] at h
  split at h
  · rw [List.mem_singleton.1 h]
    exact mem_alphabet_iff.2 (.inl (by decide))
  split at h
  · rename_i kept
    rw [List.mem_singleton.1 h]
    exact kept_mem_alphabet b kept
  · rcases Percent.code_of_mem_escapeSigns c (Percent.mem_escapeSigns_of_mem_escape h) with
      sign | letter
    · rw [mem_alphabet_iff, sign]
      exact .inl (by decide)
    · exact mem_alphabet_iff.2 (.inr letter)

theorem mem_encodeText {s : String} {c : Char} (h : c ∈ encodeText s) : c ∈ alphabet := by
  rw [encodeText, List.mem_flatMap] at h
  obtain ⟨b, -, hb⟩ := h
  exact mem_alphabet_of_mem_encodeByte hb

/-- No name or value has a sign in it that separates it from another. -/
theorem not_separator_of_mem_encodeText {s : String} {b : UInt8}
    (h : b ∈ asciiBytes (encodeText s)) : b ≠ 0x26 ∧ b ≠ 0x3D := by
  obtain ⟨c, hc, rfl⟩ := List.mem_map.1 h
  obtain ⟨ascii, notAmpersand, notEqual⟩ := code_of_mem_alphabet (mem_encodeText hc)
  have code : (UInt8.ofNat c.toNat).toNat = c.toNat :=
    UInt8.toNat_ofNat_of_lt' (Nat.lt_trans ascii (by decide))
  constructor
  · intro same
    exact notAmpersand (code.symm.trans (congrArg UInt8.toNat same))
  · intro same
    exact notEqual (code.symm.trans (congrArg UInt8.toNat same))

/-- A plus sign stands for a space. -/
def spaced (b : Bytes) : Bytes := b.map fun x => if x = 0x2B then 0x20 else x

theorem spaced_append (a b : Bytes) : spaced (a ++ b) = spaced a ++ spaced b := List.map_append

theorem spaced_eq_self {b : Bytes} (h : ∀ x ∈ b, x ≠ 0x2B) : spaced b = b := by
  rw [spaced, List.map_congr_left fun x mem => if_neg (h x mem)]
  exact List.map_id' b

theorem spaced_encodeByte (b : UInt8) :
    spaced (asciiBytes (encodeByte b)) =
      if b = 0x20 ∨ isKept b = true then [b] else asciiBytes (Percent.escape b) := by
  rw [encodeByte]
  by_cases space : b = 0x20
  · subst space
    decide
  by_cases kept : isKept b = true
  · have self : asciiBytes [Char.ofNat b.toNat] = [b] := by
      change [UInt8.ofNat (Char.ofNat b.toNat).toNat] = [b]
      rw [toNat_char, UInt8.ofNat_toNat]
    rw [if_neg space, if_pos kept, if_pos (.inr kept), self]
    refine spaced_eq_self fun x mem => ?_
    rw [List.mem_singleton.1 mem]
    rintro rfl
    exact absurd kept (by decide)
  · rw [if_neg space, if_neg kept, if_neg (not_or.2 ⟨space, kept⟩)]
    refine spaced_eq_self fun x mem plus => ?_
    obtain ⟨c, sign, rfl⟩ := List.mem_map.1 mem
    have code := Percent.code_of_mem_escapeSigns c (Percent.mem_escapeSigns_of_mem_escape sign)
    rw [mem_alphanumerics] at code
    have value : (UInt8.ofNat c.toNat).toNat = c.toNat :=
      UInt8.toNat_ofNat_of_lt' (by change c.toNat < 256; omega)
    rw [plus] at value
    change 0x2B = c.toNat at value
    omega

theorem ne_escape_of_kept (b : UInt8) (h : b = 0x20 ∨ isKept b = true) : b ≠ 0x25 := by
  rintro rfl
  exact absurd h (by decide)

theorem decodeBytes_encodeBytes (bs : Bytes) :
    Percent.decodeBytes (spaced (asciiBytes (bs.flatMap encodeByte))) = bs := by
  induction bs with
  | nil => rfl
  | cons b bs ih =>
    rw [List.flatMap_cons, asciiBytes_append, spaced_append, spaced_encodeByte]
    split
    · rename_i kept
      rw [List.cons_append, List.nil_append, Percent.decodeBytes_cons (ne_escape_of_kept b kept),
        ih]
    · rw [Percent.decodeBytes_escape, ih]

@[simp] theorem decodeText_encodeText (s : String) : decodeText (asciiBytes (encodeText s)) = s := by
  change decodeLossy (Percent.decodeBytes (spaced (asciiBytes (encodeText s)))) = s
  rw [encodeText, decodeBytes_encodeBytes, decodeLossy_encode]

theorem asciiBytes_encodePair (p : String × String) :
    asciiBytes (encodePair p) =
      asciiBytes (encodeText p.1) ++ 0x3D :: asciiBytes (encodeText p.2) := by
  rw [encodePair, asciiBytes_append]
  rfl

theorem ascii_of_mem_encodePair {p : String × String} {c : Char} (h : c ∈ encodePair p) :
    c.toNat < 0x80 := by
  rw [encodePair, List.mem_append, List.mem_cons] at h
  rcases h with h | rfl | h
  · exact ascii_of_mem_alphabet c (mem_encodeText h)
  · decide
  · exact ascii_of_mem_alphabet c (mem_encodeText h)

theorem not_ampersand_of_mem_encodePair {p : String × String} :
    ∀ b ∈ asciiBytes (encodePair p), (b == 0x26) = false := by
  intro b hb
  rw [asciiBytes_encodePair, List.mem_append, List.mem_cons] at hb
  rcases hb with h | rfl | h
  · exact beq_false_of_ne (not_separator_of_mem_encodeText h).1
  · rfl
  · exact beq_false_of_ne (not_separator_of_mem_encodeText h).1

theorem decodePair_encodePair (p : String × String) :
    decodePair (asciiBytes (encodePair p)) = p := by
  have name : ∀ b ∈ asciiBytes (encodeText p.1), (b == 0x3D) = false := fun b hb =>
    beq_false_of_ne (not_separator_of_mem_encodeText hb).2
  rw [decodePair, asciiBytes_encodePair, cut, cut?_append_cons _ name (by rfl)]
  simp

/-- The pairs of a form are those before an ampersand and those after it. -/
theorem parseQuery_append (a b : Bytes) :
    parseQuery (a ++ 0x26 :: b) = parseQuery a ++ parseQuery b := by
  rw [parseQuery, pieces_append_separator _ a (by rfl) b, List.filter_append, List.map_append]
  rfl

theorem parse_append (a b : Bytes) : parse (a ++ 0x26 :: b) = parse a ++ parse b := by
  rw [parse, parseQuery_append, List.filter_append]
  rfl

theorem parseQuery_encodePair (p : String × String) :
    parseQuery (asciiBytes (encodePair p)) = [p] := by
  have filled : asciiBytes (encodePair p) ≠ [] := by simp [asciiBytes_encodePair]
  rw [parseQuery, pieces_of_forall_not _ not_ampersand_of_mem_encodePair]
  simp [filled, decodePair_encodePair]

/-- The bytes of a form. -/
theorem encode_bytes (ps : Pairs) :
    Utf8.encode (encode ps) = asciiBytes (List.intercalate ['&'] (ps.map encodePair)) := by
  apply encode_ascii
  intro c hc
  induction ps with
  | nil => simp at hc
  | cons p ps ih =>
    cases ps with
    | nil => exact ascii_of_mem_encodePair (p := p) (by simpa using hc)
    | cons q ps =>
      rw [List.map_cons, List.map_cons, List.intercalate_cons_cons, List.mem_append,
        List.mem_append] at hc
      rcases hc with (hc | hc) | hc
      · exact ascii_of_mem_encodePair hc
      · rw [List.mem_singleton.1 hc]
        decide
      · exact ih hc

/-- Reading inverts writing, pairs without a name included. -/
theorem parseQuery_encode (ps : Pairs) : parseQuery (Utf8.encode (encode ps)) = ps := by
  rw [encode_bytes]
  induction ps with
  | nil => rfl
  | cons p ps ih =>
    cases ps with
    | nil => simpa using parseQuery_encodePair p
    | cons q ps =>
      rw [List.map_cons, List.map_cons, List.intercalate_cons_cons, asciiBytes_append,
        asciiBytes_append, List.append_assoc]
      change parseQuery (_ ++ 0x26 :: asciiBytes (List.intercalate ['&'] ((q :: ps).map encodePair)))
        = _
      rw [parseQuery_append, parseQuery_encodePair, ih]
      rfl

theorem parse_encode (ps : Pairs) :
    parse (Utf8.encode (encode ps)) = ps.filter (·.1 != "") := by
  rw [parse, parseQuery_encode]

end Form
end DelegatedFetch
