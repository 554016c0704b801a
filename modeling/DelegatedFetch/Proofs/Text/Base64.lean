import DelegatedFetch.Text.Base64

/-!
# Reading back base64

Reading inverts writing in each format whose characters tell their values and
whose padding is none of them. Both formats in use are such. In the other
direction no law is needed: whatever is read, in any format, was written so,
down to the last bit and the padding. So each text has one meaning, and each
sequence of bytes has one text.
-/

namespace DelegatedFetch.Base64

/-- Each value has a character of its own, and the padding has no value. -/
structure Format.IsLawful (f : Format) : Prop where
  value_digit : ∀ n < 64, f.value? (f.digit n) = some n
  value_pad : f.value? '=' = none

theorem standard_isLawful : standard.IsLawful := ⟨by decide, by decide⟩

theorem url_isLawful : url.IsLawful := ⟨by decide, by decide⟩

variable {f : Format}

theorem Format.IsLawful.digit_ne_pad (hf : f.IsLawful) {n : Nat} (hn : n < 64) :
    f.digit n ≠ '=' := by
  intro h
  have value := hf.value_digit n hn
  rw [h, hf.value_pad] at value
  cases value

/-- One byte at the end. -/
theorem decodeEnd?_one (hf : f.IsLawful) (a : UInt8) :
    decodeEnd? f (f.digit (a.toNat / 4) :: f.digit (a.toNat % 4 * 16) :: f.pad 2) = some [a] := by
  have ha := UInt8.toNat_lt a
  have whole : a.toNat / 4 * 4 + a.toNat % 4 * 16 / 16 = a.toNat := by omega
  have excess : a.toNat % 4 * 16 % 16 = 0 := by omega
  rw [decodeEnd?, hf.value_digit _ (by omega), hf.value_digit _ (by omega)]
  simp only [Option.bind_eq_bind, Option.bind_some, if_true, excess, whole, UInt8.ofNat_toNat]

/-- Two bytes at the end. -/
theorem decodeEnd?_two (hf : f.IsLawful) (a b : UInt8) :
    decodeEnd? f (f.digit ((a.toNat * 256 + b.toNat) / 1024) ::
      f.digit ((a.toNat * 256 + b.toNat) / 16 % 64) ::
      f.digit ((a.toNat * 256 + b.toNat) % 16 * 4) :: f.pad 1) = some [a, b] := by
  have ha := UInt8.toNat_lt a
  have hb := UInt8.toNat_lt b
  have first : (a.toNat * 256 + b.toNat) / 1024 * 4 + (a.toNat * 256 + b.toNat) / 16 % 64 / 16 =
    a.toNat := by omega
  have second : (a.toNat * 256 + b.toNat) / 16 % 64 % 16 * 16 +
    (a.toNat * 256 + b.toNat) % 16 * 4 / 4 = b.toNat := by omega
  have excess : (a.toNat * 256 + b.toNat) % 16 * 4 % 4 = 0 := by omega
  have notPad : f.digit ((a.toNat * 256 + b.toNat) % 16 * 4) :: f.pad 1 ≠ f.pad 2 := by
    unfold Format.pad
    split
    · simpa using hf.digit_ne_pad (by omega)
    · simp
  rw [decodeEnd?, hf.value_digit _ (by omega), hf.value_digit _ (by omega)]
  simp only [Option.bind_eq_bind, Option.bind_some, if_neg notPad,
    hf.value_digit _ (show (a.toNat * 256 + b.toNat) % 16 * 4 < 64 by omega), excess, and_self,
    if_true, first, second, UInt8.ofNat_toNat]

/-- A group that ends in padding is the last one. -/
theorem decodeChars?_pad (hf : f.IsLawful) (w x y : Char) :
    decodeChars? f [w, x, y, '='] = decodeEnd? f [w, x, y, '='] := by
  rw [decodeChars?, hf.value_pad]
  rcases f.value? w with _ | _ <;> rcases f.value? x with _ | _ <;>
    rcases f.value? y with _ | _ <;> rfl

theorem decodeChars?_end_one (hf : f.IsLawful) (w x : Char) :
    decodeChars? f (w :: x :: f.pad 2) = decodeEnd? f (w :: x :: f.pad 2) := by
  rw [Format.pad]
  split
  · exact decodeChars?_pad hf w x '='
  · rfl

theorem decodeChars?_end_two (hf : f.IsLawful) (w x y : Char) :
    decodeChars? f (w :: x :: y :: f.pad 1) = decodeEnd? f (w :: x :: y :: f.pad 1) := by
  rw [Format.pad]
  split
  · exact decodeChars?_pad hf w x y
  · rfl

theorem decodeChars?_encodeChars (hf : f.IsLawful) (b : Bytes) :
    decodeChars? f (encodeChars f b) = some b := by
  fun_induction encodeChars f b with
  | case1 a b c rest n ih =>
    have ha := UInt8.toNat_lt a
    have hb := UInt8.toNat_lt b
    have hc := UInt8.toNat_lt c
    have first : n / 262144 * 4 + n / 4096 % 64 / 16 = a.toNat := by omega
    have second : n / 4096 % 64 % 16 * 16 + n / 64 % 64 / 4 = b.toNat := by omega
    have third : n / 64 % 64 % 4 * 64 + n % 64 = c.toNat := by omega
    rw [decodeChars?, hf.value_digit _ (by omega), hf.value_digit _ (by omega),
      hf.value_digit _ (by omega), hf.value_digit _ (by omega)]
    simp only [ih, Option.bind_eq_bind, Option.bind_some, first, second, third, UInt8.ofNat_toNat]
  | case2 a b n =>
    exact (decodeChars?_end_two hf _ _ _).trans (decodeEnd?_two hf a b)
  | case3 a =>
    exact (decodeChars?_end_one hf _ _).trans (decodeEnd?_one hf a)
  | case4 => rfl

theorem decode?_encode (hf : f.IsLawful) (b : Bytes) : decode? f (encode f b) = some b := by
  rw [decode?, encode, String.toList_ofList, decodeChars?_encodeChars hf]

/-- A text in base64 has nothing in it but the characters of values and the padding. -/
theorem mem_encodeChars {b : Bytes} {c : Char} (h : c ∈ encodeChars f b) :
    (∃ n < 64, c = f.digit n) ∨ c ∈ f.pad 2 := by
  have pad_one : ∀ c ∈ f.pad 1, c ∈ f.pad 2 := by
    unfold Format.pad
    split <;> simp
  fun_induction encodeChars f b with
  | case1 x y z rest n ih =>
    have hx := UInt8.toNat_lt x
    have hy := UInt8.toNat_lt y
    have hz := UInt8.toNat_lt z
    simp only [List.mem_cons] at h
    rcases h with h | h | h | h | h
    · exact .inl ⟨_, by omega, h⟩
    · exact .inl ⟨_, by omega, h⟩
    · exact .inl ⟨_, by omega, h⟩
    · exact .inl ⟨_, by omega, h⟩
    · exact ih h
  | case2 x y n =>
    have hx := UInt8.toNat_lt x
    have hy := UInt8.toNat_lt y
    simp only [List.mem_cons] at h
    rcases h with h | h | h | h
    · exact .inl ⟨_, by omega, h⟩
    · exact .inl ⟨_, by omega, h⟩
    · exact .inl ⟨_, by omega, h⟩
    · exact .inr (pad_one c h)
  | case3 x =>
    have hx := UInt8.toNat_lt x
    simp only [List.mem_cons] at h
    rcases h with h | h | h
    · exact .inl ⟨_, by omega, h⟩
    · exact .inl ⟨_, by omega, h⟩
    · exact .inr h
  | case4 => cases h

/-- A character with a value is the one that the value is written as. -/
theorem Format.digit_of_value? {c : Char} {n : Nat} (h : f.value? c = some n) :
    n < 64 ∧ f.digit n = c := by
  have bounds {low high : Char} (within : low ≤ c ∧ c ≤ high) :
      low.toNat ≤ c.toNat ∧ c.toNat ≤ high.toNat := within
  rw [value?] at h
  split at h
  · rename_i upper
    obtain ⟨low, high⟩ : 65 ≤ c.toNat ∧ c.toNat ≤ 90 := bounds upper
    obtain rfl := Option.some.inj h
    have code : 65 + (c.toNat - 65) = c.toNat := by omega
    refine ⟨by omega, ?_⟩
    rw [digit, if_pos (by omega), code, Char.ofNat_toNat]
  split at h
  · rename_i lower
    obtain ⟨low, high⟩ : 97 ≤ c.toNat ∧ c.toNat ≤ 122 := bounds lower
    obtain rfl := Option.some.inj h
    have code : 71 + (c.toNat - 71) = c.toNat := by omega
    refine ⟨by omega, ?_⟩
    rw [digit, if_neg (by omega), if_pos (by omega), code, Char.ofNat_toNat]
  split at h
  · rename_i figure
    obtain ⟨low, high⟩ : 48 ≤ c.toNat ∧ c.toNat ≤ 57 := bounds figure
    obtain rfl := Option.some.inj h
    refine ⟨by omega, ?_⟩
    rw [digit, if_neg (by omega), if_neg (by omega), if_pos (by omega), Nat.add_sub_cancel,
      Char.ofNat_toNat]
  split at h
  · rename_i same
    obtain rfl := Option.some.inj h
    exact ⟨by decide, same.symm⟩
  split at h
  · rename_i same
    obtain rfl := Option.some.inj h
    exact ⟨by decide, same.symm⟩
  · cases h

theorem toNat_ofNat_byte {n : Nat} (small : n < 256) : (UInt8.ofNat n).toNat = n :=
  UInt8.toNat_ofNat_of_lt' small

/-- Two values without excess are written for the one byte that they make. -/
theorem encodeChars_one {w x : Nat} (hw : w < 64) (hx : x < 64) (excess : x % 16 = 0) :
    encodeChars f [UInt8.ofNat (w * 4 + x / 16)] = f.digit w :: f.digit x :: f.pad 2 := by
  have high : (w * 4 + x / 16) / 4 = w := by omega
  have low : (w * 4 + x / 16) % 4 * 16 = x := by omega
  rw [encodeChars, toNat_ofNat_byte (by omega), high, low]

/-- Three values without excess are written for the two bytes that they make. -/
theorem encodeChars_two {w x y : Nat} (hw : w < 64) (hx : x < 64) (hy : y < 64)
    (excess : y % 4 = 0) :
    encodeChars f [UInt8.ofNat (w * 4 + x / 16), UInt8.ofNat (x % 16 * 16 + y / 4)] =
      f.digit w :: f.digit x :: f.digit y :: f.pad 1 := by
  have high : ((w * 4 + x / 16) * 256 + (x % 16 * 16 + y / 4)) / 1024 = w := by omega
  have middle : ((w * 4 + x / 16) * 256 + (x % 16 * 16 + y / 4)) / 16 % 64 = x := by omega
  have low : ((w * 4 + x / 16) * 256 + (x % 16 * 16 + y / 4)) % 16 * 4 = y := by omega
  rw [encodeChars, toNat_ofNat_byte (by omega), toNat_ofNat_byte (by omega)]
  simp only [high, middle, low]

/-- Four values are written for the three bytes that they make. -/
theorem encodeChars_group {w x y z : Nat} (hw : w < 64) (hx : x < 64) (hy : y < 64) (hz : z < 64)
    (rest : Bytes) :
    encodeChars f (UInt8.ofNat (w * 4 + x / 16) :: UInt8.ofNat (x % 16 * 16 + y / 4) ::
        UInt8.ofNat (y % 4 * 64 + z) :: rest) =
      f.digit w :: f.digit x :: f.digit y :: f.digit z :: encodeChars f rest := by
  have group : ((w * 4 + x / 16) * 256 + (x % 16 * 16 + y / 4)) * 256 + (y % 4 * 64 + z) =
      ((w * 64 + x) * 64 + y) * 64 + z := by omega
  have first : (((w * 64 + x) * 64 + y) * 64 + z) / 262144 = w := by omega
  have second : (((w * 64 + x) * 64 + y) * 64 + z) / 4096 % 64 = x := by omega
  have third : (((w * 64 + x) * 64 + y) * 64 + z) / 64 % 64 = y := by omega
  have fourth : (((w * 64 + x) * 64 + y) * 64 + z) % 64 = z := by omega
  rw [encodeChars, toNat_ofNat_byte (by omega), toNat_ofNat_byte (by omega),
    toNat_ofNat_byte (by omega), group]
  simp only [first, second, third, fourth]

/-- An incomplete group that is read was written for the bytes that it is read as. -/
theorem encodeChars_of_decodeEnd? {cs : List Char} {b : Bytes}
    (read : decodeEnd? f cs = some b) : encodeChars f b = cs := by
  rcases cs with _ | ⟨w', _ | ⟨x', tail⟩⟩
  · obtain rfl := Option.some.inj read
    rfl
  · cases read
  rw [decodeEnd?] at read
  obtain ⟨w, first, afterFirst⟩ := Option.bind_eq_some_iff.1 read
  obtain ⟨x, second, afterSecond⟩ := Option.bind_eq_some_iff.1 afterFirst
  obtain ⟨hw, rfl⟩ := Format.digit_of_value? first
  obtain ⟨hx, rfl⟩ := Format.digit_of_value? second
  clear read afterFirst
  split at afterSecond
  · rename_i padding
    split at afterSecond
    · rename_i excess
      obtain rfl := Option.some.inj afterSecond
      rw [encodeChars_one hw hx excess, padding]
    · cases afterSecond
  cases tail with
  | nil => cases afterSecond
  | cons y' tail =>
    obtain ⟨y, third, afterThird⟩ := Option.bind_eq_some_iff.1 afterSecond
    obtain ⟨hy, rfl⟩ := Format.digit_of_value? third
    clear afterSecond
    split at afterThird
    · rename_i ends
      obtain rfl := Option.some.inj afterThird
      rw [encodeChars_two hw hx hy ends.2, ends.1]
    · cases afterThird

/-- Characters that are read were written for the bytes that they are read as. -/
theorem encodeChars_of_decodeChars? {cs : List Char} {b : Bytes}
    (read : decodeChars? f cs = some b) : encodeChars f b = cs := by
  fun_induction decodeChars? f cs generalizing b with
  | case1 w' x' y' z' rest w x y z fourth third second first ih =>
    obtain ⟨bytes, others, same⟩ := Option.bind_eq_some_iff.1 read
    obtain rfl := Option.some.inj same
    obtain ⟨hw, rfl⟩ := Format.digit_of_value? first
    obtain ⟨hx, rfl⟩ := Format.digit_of_value? second
    obtain ⟨hy, rfl⟩ := Format.digit_of_value? third
    obtain ⟨hz, rfl⟩ := Format.digit_of_value? fourth
    rw [encodeChars_group hw hx hy hz, ih others]
  | case2 => exact encodeChars_of_decodeEnd? read
  | case3 => exact encodeChars_of_decodeEnd? read

/-- Reading takes exactly what writing makes. -/
theorem decode?_eq_some_iff (hf : f.IsLawful) {s : String} {b : Bytes} :
    decode? f s = some b ↔ s = encode f b := by
  constructor
  · intro read
    rw [encode, encodeChars_of_decodeChars? read, String.ofList_toList]
  · rintro rfl
    exact decode?_encode hf b

end DelegatedFetch.Base64
