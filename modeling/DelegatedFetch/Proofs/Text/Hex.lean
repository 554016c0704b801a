import DelegatedFetch.Proofs.Text.Escapes
import DelegatedFetch.Text.Hex

/-!
# Reading back hexadecimal text

Both digits of a byte are read as its halves, and the halves make up the byte.
-/

namespace DelegatedFetch.Hex

theorem charValue?_lowerDigit (b : UInt8) :
    charValue? (lowerDigit (b >>> 4)) = some (b >>> 4) ∧
      charValue? (lowerDigit (b &&& 15)) = some (b &&& 15) := by
  have digit {d : UInt8} (small : d.toNat < 16) : charValue? (lowerDigit d) = some d :=
    forall_byte_lt (P := fun d => charValue? (lowerDigit d) = some d) (by decide) small
  exact ⟨digit (halves_lt b).1, digit (halves_lt b).2⟩

@[simp] theorem decode?_encode (b : Bytes) : decode? (encode b) = some b := by
  rw [decode?, encode, String.toList_ofList]
  induction b with
  | nil => rfl
  | cons x rest ih =>
    obtain ⟨high, low⟩ := charValue?_lowerDigit x
    rw [List.flatMap_cons]
    simp only [List.cons_append, List.nil_append, decodeChars?, high, low, ih, halves,
      Option.bind_eq_bind, Option.bind_some]

theorem encode_injective {a b : Bytes} (h : encode a = encode b) : a = b := by
  have read := congrArg decode? h
  rwa [decode?_encode, decode?_encode, Option.some_inj] at read

end DelegatedFetch.Hex
