import DelegatedFetch.Text.Utf8

/-!
# Reading back what was written as UTF-8

The reader of one character takes back each of the four forms in which a
character is written, whatever follows. Both readings of a whole text, the
strict and the lossy one, are then the inverse of writing.
-/

namespace DelegatedFetch.Utf8

/-- A byte is made of the bits that mark its place and of its share of the character. -/
theorem toNat_marked {x mark : Nat} (h : x + mark < 256) :
    (UInt8.ofNat (x + mark)).toNat = x + mark := by
  rw [UInt8.toNat_ofNat']
  exact Nat.mod_eq_of_lt h

theorem between_iff {low b high : UInt8} :
    (low ≤ b && b ≤ high) = true ↔ low.toNat ≤ b.toNat ∧ b.toNat ≤ high.toNat := by
  simp only [UInt8.le_iff_toNat_le, Bool.and_eq_true, decide_eq_true_eq]

theorem isTail_marked {x : Nat} (hx : x < 64) : isTail (UInt8.ofNat (x + 0x80)) = true := by
  rw [isTail, between_iff, toNat_marked (by omega)]
  simp only [UInt8.reduceToNat]
  omega

theorem tailBits_marked {x : Nat} (hx : x < 64) : tailBits (UInt8.ofNat (x + 0x80)) = x := by
  rw [tailBits, toNat_marked (by omega)]
  omega

/-- The second byte keeps to shortest forms, and off surrogates and what lies beyond the last
character. -/
theorem isSecond_marked {first x : Nat} (hf : first < 256) (hx : x < 64)
    (shortThree : first = 0xE0 → 32 ≤ x) (noSurrogate : first = 0xED → x < 32)
    (shortFour : first = 0xF0 → 16 ≤ x) (inRange : first = 0xF4 → x < 16) :
    isSecond (UInt8.ofNat first) (UInt8.ofNat (x + 0x80)) = true := by
  have value : (UInt8.ofNat (x + 0x80)).toNat = x + 0x80 := toNat_marked (by omega)
  have valueFirst : (UInt8.ofNat first).toNat = first := UInt8.toNat_ofNat_of_lt' hf
  simp only [isSecond, isTail_marked hx, Bool.true_and, Bool.and_eq_true, Bool.not_eq_true',
    Bool.and_eq_false_iff, beq_eq_false_iff_ne, ne_eq, decide_eq_false_iff_not,
    UInt8.lt_iff_toNat_lt, gt_iff_lt, ← UInt8.toNat_inj, value, valueFirst]
  simp only [UInt8.reduceToNat]
  omega

theorem readChar_one {v : Nat} (hv : v ≤ 0x7F) (rest : Bytes) :
    readChar (UInt8.ofNat v) rest = (some (Char.ofNat v), 0) := by
  have value : (UInt8.ofNat v).toNat = v := UInt8.toNat_ofNat_of_lt' (Nat.lt_of_le_of_lt hv (by decide))
  have one : UInt8.ofNat v < 0x80 := by
    rw [UInt8.lt_iff_toNat_lt, value]
    exact Nat.lt_of_le_of_lt hv (by decide)
  unfold readChar
  rw [if_pos one, value]

theorem readChar_two {x y : Nat} (low : 2 ≤ x) (hx : x < 32) (hy : y < 64) (rest : Bytes) :
    readChar (UInt8.ofNat (x + 0xC0)) (UInt8.ofNat (y + 0x80) :: rest) =
      (some (Char.ofNat (x * 64 + y)), 1) := by
  have value : (UInt8.ofNat (x + 0xC0)).toNat = x + 0xC0 := toNat_marked (by omega)
  have notOne : ¬ UInt8.ofNat (x + 0xC0) < 0x80 := by
    simp only [UInt8.lt_iff_toNat_lt, value, UInt8.reduceToNat]
    omega
  have two : (0xC2 ≤ UInt8.ofNat (x + 0xC0) && UInt8.ofNat (x + 0xC0) ≤ 0xDF) = true := by
    rw [between_iff, value]
    simp only [UInt8.reduceToNat]
    omega
  have bits : (x + 0xC0) % 32 = x := by omega
  unfold readChar
  simp only [if_neg notOne, if_pos two, isTail_marked hy, if_true, value, bits, tailBits_marked hy]

theorem readChar_three {x y z : Nat} (hx : x < 16) (hy : y < 64) (hz : z < 64)
    (short : x = 0 → 32 ≤ y) (noSurrogate : x = 13 → y < 32) (rest : Bytes) :
    readChar (UInt8.ofNat (x + 0xE0))
        (UInt8.ofNat (y + 0x80) :: UInt8.ofNat (z + 0x80) :: rest) =
      (some (Char.ofNat ((x * 64 + y) * 64 + z)), 2) := by
  have value : (UInt8.ofNat (x + 0xE0)).toNat = x + 0xE0 := toNat_marked (by omega)
  have notOne : ¬ UInt8.ofNat (x + 0xE0) < 0x80 := by
    simp only [UInt8.lt_iff_toNat_lt, value, UInt8.reduceToNat]
    omega
  have notTwo : ¬ (0xC2 ≤ UInt8.ofNat (x + 0xE0) && UInt8.ofNat (x + 0xE0) ≤ 0xDF) = true := by
    rw [between_iff, value]
    simp only [UInt8.reduceToNat]
    omega
  have three : (0xE0 ≤ UInt8.ofNat (x + 0xE0) && UInt8.ofNat (x + 0xE0) ≤ 0xEF) = true := by
    rw [between_iff, value]
    simp only [UInt8.reduceToNat]
    omega
  have second : isSecond (UInt8.ofNat (x + 0xE0)) (UInt8.ofNat (y + 0x80)) = true :=
    isSecond_marked (by omega) hy (by omega) (by omega) (by omega) (by omega)
  have bits : (x + 0xE0) % 16 = x := by omega
  unfold readChar
  simp only [if_neg notOne, if_neg notTwo, if_pos three, second, isTail_marked hz, if_true, value,
    bits, tailBits_marked hy, tailBits_marked hz]

theorem readChar_four {x y z w : Nat} (hx : x < 5) (hy : y < 64) (hz : z < 64) (hw : w < 64)
    (short : x = 0 → 16 ≤ y) (inRange : x = 4 → y < 16) (rest : Bytes) :
    readChar (UInt8.ofNat (x + 0xF0))
        (UInt8.ofNat (y + 0x80) :: UInt8.ofNat (z + 0x80) :: UInt8.ofNat (w + 0x80) :: rest) =
      (some (Char.ofNat (((x * 64 + y) * 64 + z) * 64 + w)), 3) := by
  have value : (UInt8.ofNat (x + 0xF0)).toNat = x + 0xF0 := toNat_marked (by omega)
  have notOne : ¬ UInt8.ofNat (x + 0xF0) < 0x80 := by
    simp only [UInt8.lt_iff_toNat_lt, value, UInt8.reduceToNat]
    omega
  have notTwo : ¬ (0xC2 ≤ UInt8.ofNat (x + 0xF0) && UInt8.ofNat (x + 0xF0) ≤ 0xDF) = true := by
    rw [between_iff, value]
    simp only [UInt8.reduceToNat]
    omega
  have notThree : ¬ (0xE0 ≤ UInt8.ofNat (x + 0xF0) && UInt8.ofNat (x + 0xF0) ≤ 0xEF) = true := by
    rw [between_iff, value]
    simp only [UInt8.reduceToNat]
    omega
  have four : (0xF0 ≤ UInt8.ofNat (x + 0xF0) && UInt8.ofNat (x + 0xF0) ≤ 0xF4) = true := by
    rw [between_iff, value]
    simp only [UInt8.reduceToNat]
    omega
  have second : isSecond (UInt8.ofNat (x + 0xF0)) (UInt8.ofNat (y + 0x80)) = true :=
    isSecond_marked (by omega) hy (by omega) (by omega) (by omega) (by omega)
  have bits : (x + 0xF0) % 8 = x := by omega
  rw [readChar]
  simp only [if_neg notOne, if_neg notTwo, if_neg notThree, if_pos four, second, isTail_marked hz,
    isTail_marked hw, if_true, value, bits, tailBits_marked hy, tailBits_marked hz,
    tailBits_marked hw]

/-- A written character is one byte and those that belong to it, and is read back from them. -/
theorem readChar_utf8EncodeChar (c : Char) :
    ∃ a tail, String.utf8EncodeChar c = a :: tail ∧
      ∀ rest, readChar a (tail ++ rest) = (some c, tail.length) := by
  have scalar : c.val.toNat < 0xD800 ∨ 0xDFFF < c.val.toNat ∧ c.val.toNat < 0x110000 := c.valid
  have back {n : Nat} (h : n = c.val.toNat) : Char.ofNat n = c := h ▸ Char.ofNat_toNat c
  unfold String.utf8EncodeChar
  by_cases one : c.val.toNat ≤ 0x7F
  · refine ⟨_, _, if_pos one, fun rest => ?_⟩
    exact (readChar_one one rest).trans (by rw [back rfl]; rfl)
  by_cases two : c.val.toNat ≤ 0x7FF
  · refine ⟨_, _, by rw [if_neg one, if_pos two], fun rest => ?_⟩
    refine (readChar_two (by omega) (by omega) (by omega) rest).trans ?_
    rw [back (by omega)]
    rfl
  by_cases three : c.val.toNat ≤ 0xFFFF
  · refine ⟨_, _, by rw [if_neg one, if_neg two, if_pos three], fun rest => ?_⟩
    refine (readChar_three (by omega) (by omega) (by omega) (by omega) (by omega) rest).trans ?_
    rw [back (by omega)]
    rfl
  · refine ⟨_, _, by rw [if_neg one, if_neg two, if_neg three], fun rest => ?_⟩
    refine (readChar_four (by omega) (by omega) (by omega) (by omega) (by omega) (by omega)
      rest).trans ?_
    rw [back (by omega)]
    rfl

theorem lossyChars_append_char (c : Char) (rest : Bytes) :
    lossyChars (String.utf8EncodeChar c ++ rest) = c :: lossyChars rest := by
  obtain ⟨a, tail, written, read⟩ := readChar_utf8EncodeChar c
  rw [written, List.cons_append, lossyChars, read rest]
  simp

theorem chars?_append_char (c : Char) (rest : Bytes) :
    chars? (String.utf8EncodeChar c ++ rest) = (chars? rest).map (c :: ·) := by
  obtain ⟨a, tail, written, read⟩ := readChar_utf8EncodeChar c
  rw [written, List.cons_append, chars?, read rest]
  simp

theorem lossyChars_flatMap (cs : List Char) :
    lossyChars (cs.flatMap String.utf8EncodeChar) = cs := by
  induction cs with
  | nil => simp [lossyChars]
  | cons c cs ih => rw [List.flatMap_cons, lossyChars_append_char, ih]

theorem chars?_flatMap (cs : List Char) :
    chars? (cs.flatMap String.utf8EncodeChar) = some cs := by
  induction cs with
  | nil => simp [chars?]
  | cons c cs ih => rw [List.flatMap_cons, chars?_append_char, ih]; rfl

@[simp] theorem decodeLossy_encode (s : String) : decodeLossy (encode s) = s := by
  rw [decodeLossy, encode, lossyChars_flatMap, String.ofList_toList]

@[simp] theorem decode?_encode (s : String) : decode? (encode s) = some s := by
  rw [decode?, encode, chars?_flatMap, Option.map_some, String.ofList_toList]

theorem encode_injective {s t : String} (h : encode s = encode t) : s = t := by
  have read := congrArg decode? h
  rwa [decode?_encode, decode?_encode, Option.some_inj] at read

theorem isSecond_of_not_isTail {a b : UInt8} (h : isTail b = false) : isSecond a b = false := by
  simp [isSecond, h]

/-- A character is read without what follows, if that begins with no byte that continues one. -/
theorem readChar_append {b : UInt8} (h : isTail b = false) (a : UInt8) (read rest : Bytes) :
    readChar a (read ++ b :: rest) = readChar a read := by
  have second := isSecond_of_not_isTail (a := a) h
  unfold readChar
  match read with
  | [] => simp [h, second]
  | [c] => simp [h]
  | [c, d] => simp [h]
  | _ :: _ :: _ :: _ => rfl

theorem readChar_le (a : UInt8) (rest : Bytes) : (readChar a rest).2 ≤ rest.length := by
  unfold readChar
  repeat' split
  all_goals simp

/-- Well-formed or not, bytes are read without what follows then. -/
theorem lossyChars_append {b : UInt8} (h : isTail b = false) (read rest : Bytes) :
    lossyChars (read ++ b :: rest) = lossyChars read ++ lossyChars (b :: rest) := by
  induction read using lossyChars.induct with
  | case1 => simp [lossyChars]
  | case2 a read c n found ih =>
    have within : n ≤ read.length := by
      have le := readChar_le a read
      rwa [found] at le
    rw [List.cons_append, lossyChars, readChar_append h, lossyChars, found]
    dsimp only
    rw [List.drop_append_of_le_length within, ih, List.cons_append]

theorem decodeLossy_append {b : UInt8} (h : isTail b = false) (read rest : Bytes) :
    decodeLossy (read ++ b :: rest) = decodeLossy read ++ decodeLossy (b :: rest) := by
  rw [decodeLossy, lossyChars_append h, String.ofList_append]
  rfl

/-- The bytes of ASCII characters, one for each. -/
def asciiBytes (cs : List Char) : Bytes := cs.map fun c => UInt8.ofNat c.toNat

@[simp] theorem asciiBytes_append (cs ds : List Char) :
    asciiBytes (cs ++ ds) = asciiBytes cs ++ asciiBytes ds := List.map_append

theorem utf8EncodeChar_ascii {c : Char} (ascii : c.toNat < 0x80) :
    String.utf8EncodeChar c = [UInt8.ofNat c.toNat] :=
  if_pos (Nat.le_of_lt_succ ascii)

theorem encode_ascii {cs : List Char} (ascii : ∀ c ∈ cs, c.toNat < 0x80) :
    encode (String.ofList cs) = asciiBytes cs := by
  rw [encode, String.toList_ofList]
  induction cs with
  | nil => rfl
  | cons c cs ih =>
    rw [List.flatMap_cons, utf8EncodeChar_ascii (ascii c List.mem_cons_self),
      ih fun d hd => ascii d (List.mem_cons_of_mem c hd)]
    rfl

end DelegatedFetch.Utf8
