import Mathlib.Data.List.TakeDrop
import DelegatedFetch.Json.Parser
import DelegatedFetch.Json.Printer
import DelegatedFetch.Proofs.Text.Hex

/-!
# Reading back texts and numbers

A text between quotes is read up to its closing quote, each escape as the
character it was written for. A natural number is read up to the first sign
that cannot continue it.
-/

namespace DelegatedFetch.Json

/-- An escape by four digits names the character it was written for. -/
theorem escape?_control {c : Char} (control : c.toNat < 0x20) (rest : List Char) :
    escape? ('u' :: '0' :: '0' :: Hex.lowerDigit (UInt8.ofNat c.toNat >>> 4) ::
      Hex.lowerDigit (UInt8.ofNat c.toNat &&& 15) :: rest) = some (.char c, rest) := by
  obtain ⟨high, low⟩ := Hex.charValue?_lowerDigit (UInt8.ofNat c.toNat)
  obtain ⟨upper, lower⟩ := toNat_halves (UInt8.ofNat c.toNat)
  have zero : Hex.charValue? '0' = some 0 := by decide
  have value : (UInt8.ofNat c.toNat).toNat = c.toNat :=
    UInt8.toNat_ofNat_of_lt' (Nat.lt_trans control (by decide))
  have whole : (UInt8.ofNat c.toNat >>> 4).toNat * 16 + (UInt8.ofNat c.toNat &&& 15).toNat =
      c.toNat := by omega
  rw [escape?, unicodeEscape?, codeUnit?, zero, high, low]
  simp only [Option.bind_eq_bind, Option.bind_some, UInt8.toNat_zero, Nat.zero_mul, Nat.zero_add,
    whole]
  rw [if_neg (by omega), if_neg (by omega), Char.ofNat_toNat]

theorem escape?_letter {c l : Char} (letter : escapeLetter? c = some l) (rest : List Char) :
    escape? (l :: rest) = some (.char c, rest) := by
  rw [escapeLetter?] at letter
  repeat' split at letter
  all_goals cases letter
  all_goals
    subst c
    rw [escape?]

/-- What is escaped is read as one piece. -/
theorem textPieces?_escape {fuel : Nat} {piece : Piece} {cs rest : List Char}
    (escaped : escape? cs = some (piece, rest)) :
    textPieces? (fuel + 1) ('\\' :: cs) =
      (textPieces? fuel rest).map fun (ps, rest) => (piece :: ps, rest) := by
  rw [textPieces?, if_neg (by decide), if_pos rfl, escaped]
  simp only [Option.bind_eq_bind, Option.bind_some]
  cases textPieces? fuel rest <;> rfl

/-- One character is read back from what was written for it. -/
theorem textPieces?_renderChar (fuel : Nat) (c : Char) (rest : List Char) :
    textPieces? (fuel + 1) (renderChar c ++ rest) =
      (textPieces? fuel rest).map fun (ps, rest) => (.char c :: ps, rest) := by
  rw [renderChar]
  split
  · rename_i quote
    rw [quote]
    exact textPieces?_escape rfl
  split
  · rename_i backslash
    rw [backslash]
    exact textPieces?_escape rfl
  split
  · rename_i control
    split
    · rename_i l letter
      exact textPieces?_escape (escape?_letter letter rest)
    · exact textPieces?_escape (escape?_control control rest)
  · rename_i quote backslash control
    rw [List.singleton_append, textPieces?, if_neg quote, if_neg backslash, if_neg control]
    cases textPieces? fuel rest <;> rfl

/-- A text is read up to its closing quote. -/
theorem textPieces?_flatMap (cs : List Char) (rest : List Char) {fuel : Nat}
    (enough : cs.length < fuel) :
    textPieces? fuel (cs.flatMap renderChar ++ '"' :: rest) = some (cs.map Piece.char, rest) := by
  induction cs generalizing fuel with
  | nil =>
    cases fuel with
    | zero => cases enough
    | succ fuel => rfl
  | cons c cs ih =>
    cases fuel with
    | zero => cases enough
    | succ fuel =>
      rw [List.flatMap_cons, List.append_assoc, textPieces?_renderChar,
        ih (Nat.lt_of_succ_lt_succ enough)]
      rfl

theorem piecesText?_chars (s : String) : piecesText? (s.toList.map Piece.char) = some s := by
  have each : (s.toList.map Piece.char).mapM Piece.char? = some s.toList := by
    generalize s.toList = cs
    induction cs with
    | nil => rfl
    | cons c cs ih => simp [List.mapM_cons, ih, Piece.char?]
  rw [piecesText?, each, Option.map_some, String.ofList_toList]

/-- No sign of a text continues a number before it. -/
def EndsNumber (cs : List Char) : Prop :=
  ∀ c rest, cs = c :: rest → c.isDigit = false ∧ c ≠ '.' ∧ c ≠ 'e' ∧ c ≠ 'E'

theorem spanDigits_append {digits rest : List Char} (all : ∀ c ∈ digits, c.isDigit = true)
    (ends : EndsNumber rest) : spanDigits (digits ++ rest) = (digits, rest) := by
  have stops : rest.takeWhile Char.isDigit = [] ∧ rest.dropWhile Char.isDigit = rest := by
    cases rest with
    | nil => exact ⟨rfl, rfl⟩
    | cons c rest =>
      obtain ⟨digit, -⟩ := ends c rest rfl
      rw [List.takeWhile_cons, List.dropWhile_cons, digit]
      exact ⟨rfl, rfl⟩
  rw [spanDigits, List.span_eq_takeWhile_dropWhile, List.takeWhile_append_of_pos all,
    List.dropWhile_append_of_pos all, stops.1, stops.2, List.append_nil]

theorem isDigit_of_mem_toDigits {n : Nat} {c : Char} (mem : c ∈ Nat.toDigits 10 n) :
    c.isDigit = true :=
  Nat.isDigit_of_mem_toDigits (by decide) (by decide) mem

theorem digits?_toDigits (n : Nat) : Decimal.digits? (Nat.toDigits 10 n) = some n := by
  have all : (Nat.toDigits 10 n).all Char.isDigit = true :=
    List.all_eq_true.2 fun c mem => isDigit_of_mem_toDigits mem
  have step : (fun n (c : Char) => n * 10 + (c.toNat - 48)) =
      fun n (c : Char) => 10 * n + (c.toNat - '0'.toNat) :=
    funext fun n => funext fun c => by rw [Nat.mul_comm]; rfl
  have value := Nat.ofDigitChars_ten_toDigits (n := n)
  rw [Nat.ofDigitChars_eq_foldl, ← step] at value
  rw [Decimal.digits?, if_pos ⟨Nat.toDigits_ne_nil, all⟩, value]

theorem head?_toDigits {n : Nat} (positive : 0 < n) :
    (Nat.toDigits 10 n).head? ≠ some '0' := by
  induction n using Nat.strongRecOn with
  | ind n ih =>
    by_cases small : n < 10
    · have digit : ∀ d : Fin 10, 0 < d.val → d.val.digitChar ≠ '0' := by decide
      rw [Nat.toDigits_of_lt_base small, List.head?_cons]
      intro zero
      exact digit ⟨n, small⟩ positive (Option.some.inj zero)
    · have large : 10 ≤ n := Nat.le_of_not_lt small
      have front := ih (n / 10) (by omega) (by omega)
      rw [Nat.toDigits_of_base_le (by decide) large, List.head?_append]
      cases head : (Nat.toDigits 10 (n / 10)).head? with
      | none => exact absurd (List.head?_eq_none_iff.1 head) Nat.toDigits_ne_nil
      | some c =>
        rw [head] at front
        exact front

/-- A number has no needless zero in front. -/
theorem no_needless_zero (n : Nat) :
    ¬ ((Nat.toDigits 10 n).length > 1 ∧ (Nat.toDigits 10 n).head? = some '0') := by
  intro ⟨long, zero⟩
  rcases Nat.eq_zero_or_pos n with rfl | positive
  · exact absurd long (by decide)
  · exact head?_toDigits positive zero

theorem unsigned?_toDigits (n : Nat) {rest : List Char} (ends : EndsNumber rest) :
    unsigned? (Nat.toDigits 10 n ++ rest) = some (.natural n, rest) := by
  have fraction : skipFraction? rest = some (false, rest) := by
    unfold skipFraction?
    split
    · rename_i more
      exact absurd rfl (ends _ more rfl).2.1
    · rfl
  have exponent : skipExponent? rest = some (false, rest) := by
    unfold skipExponent?
    split
    · rename_i c more
      obtain ⟨-, -, small, large⟩ := ends c more rfl
      rw [if_neg (not_or.2 ⟨small, large⟩)]
    · rfl
  have whole := spanDigits_append (fun c mem => isDigit_of_mem_toDigits (n := n) mem) ends
  simp only [unsigned?, whole, digits?_toDigits, Option.bind_eq_bind, Option.bind_some,
    if_neg (no_needless_zero n), fraction, exponent, Bool.or_self, Bool.false_eq_true, if_false]

end DelegatedFetch.Json
