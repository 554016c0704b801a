import Mathlib.FieldTheory.Finite.Basic
import DelegatedFetch.Proofs.Signing.Agreement

/-!
# A private key fits its public half

The two exponents of a sound key undo each other modulo each of its two
numbers, if these are primes, and so modulo their product, if they are two.
A padded digest is below the modulus, since its first byte is zero and the
modulus needs no more bytes. So the public half accepts what the key signs.

That the two numbers are primes is not checked where keys are read.
-/

namespace DelegatedFetch

namespace Bytes

theorem toNat_lt (b : Bytes) : toNat b < 256 ^ b.length := by
  induction b using List.reverseRecOn with
  | nil => decide
  | append_singleton b x ih =>
    have hx := UInt8.toNat_lt x
    rw [toNat_append_singleton, List.length_append, List.length_singleton, pow_succ]
    omega

theorem ofNat_toNat (b : Bytes) : ofNat b.length (toNat b) = b := by
  induction b using List.reverseRecOn with
  | nil => rfl
  | append_singleton b x ih =>
    have hx := UInt8.toNat_lt x
    have high : (toNat b * 256 + x.toNat) / 256 = toNat b := by omega
    have low : UInt8.ofNat (toNat b * 256 + x.toNat) = x := by
      rw [← UInt8.toNat_inj, UInt8.toNat_ofNat']
      omega
    rw [toNat_append_singleton, List.length_append, List.length_singleton, ofNat, high, low, ih]

theorem toNat_cons (x : UInt8) (b : Bytes) :
    toNat (x :: b) = x.toNat * 256 ^ b.length + toNat b := by
  induction b using List.reverseRecOn with
  | nil => simp [toNat]
  | append_singleton b y ih =>
    rw [← List.cons_append, toNat_append_singleton, ih, toNat_append_singleton, List.length_append,
      List.length_singleton, pow_succ]
    ring

end Bytes

namespace Rsa

theorem powMod_eq (base exponent modulus : Nat) :
    powMod base exponent modulus = base ^ exponent % modulus := by
  induction exponent using Nat.strongRecOn generalizing base with
  | ind exponent ih =>
    rw [powMod]
    split
    · rename_i zero
      rw [zero, pow_zero]
    · rename_i positive
      have half : powMod (base * base % modulus) (exponent / 2) modulus =
          base ^ (2 * (exponent / 2)) % modulus := by
        rw [ih _ (by omega), ← Nat.pow_mod, pow_mul, sq]
      simp only [half]
      split
      · rename_i odd
        have whole : exponent = 2 * (exponent / 2) + 1 := by omega
        conv_rhs => rw [whole, pow_succ, mul_comm]
        rw [Nat.mul_mod_mod]
      · rename_i even
        have whole : exponent = 2 * (exponent / 2) := by omega
        conv_rhs => rw [whole]

/-- Exponents that undo each other modulo a prime less one undo each other modulo the prime. -/
theorem pow_modEq_self {p n : Nat} (prime : p.Prime) (positive : 1 ≤ n)
    (inverse : (n - 1) % (p - 1) = 0) (m : Nat) : m ^ n ≡ m [MOD p] := by
  obtain ⟨k, hk⟩ := Nat.dvd_of_mod_eq_zero inverse
  have whole : n = (p - 1) * k + 1 := by omega
  by_cases divides : p ∣ m
  · have zero : m ≡ 0 [MOD p] := Nat.modEq_zero_iff_dvd.2 divides
    have power : m ^ n ≡ 0 [MOD p] :=
      Nat.modEq_zero_iff_dvd.2 (dvd_pow divides (by omega))
    exact power.trans zero.symm
  · have coprime : m.Coprime p := ((Nat.Prime.coprime_iff_not_dvd prime).2 divides).symm
    have one : m ^ (p - 1) ≡ 1 [MOD p] := by
      rw [← Nat.totient_prime prime]
      exact Nat.ModEq.pow_totient coprime
    calc m ^ n = (m ^ (p - 1)) ^ k * m := by rw [whole, pow_succ, pow_mul]
      _ ≡ 1 ^ k * m [MOD p] := (one.pow k).mul_right m
      _ = m := by rw [one_pow, one_mul]

/-- The two exponents of a sound key undo each other. -/
theorem PrivateKey.pow_pow {k : PrivateKey} (sound : k.IsSound) (prime1 : k.prime1.Prime)
    (prime2 : k.prime2.Prime) (two : k.prime1 ≠ k.prime2) {m : Nat} (small : m < k.modulus) :
    powMod (powMod m k.privateExponent k.modulus) k.publicExponent k.modulus = m := by
  obtain ⟨-, -, -, product, positive, inverse1, inverse2⟩ := sound
  have coprime : k.prime1.Coprime k.prime2 := (Nat.coprime_primes prime1 prime2).2 two
  have undone : m ^ (k.publicExponent * k.privateExponent) ≡ m [MOD k.prime1 * k.prime2] :=
    (Nat.modEq_and_modEq_iff_modEq_mul coprime).1
      ⟨pow_modEq_self prime1 positive inverse1 m, pow_modEq_self prime2 positive inverse2 m⟩
  rw [powMod_eq, powMod_eq, ← Nat.pow_mod, ← pow_mul, mul_comm k.privateExponent]
  rw [product] at undone
  exact Eq.trans undone (Nat.mod_eq_of_lt small)

theorem two_pow_le_of_bitLength {n : Nat} (positive : n ≠ 0) : 2 ^ (bitLength n - 1) ≤ n := by
  rw [bitLength, if_neg positive, Nat.add_sub_cancel]
  exact Nat.log2_self_le positive

/-- A padded digest has the length that was asked for, and its number has one bit beyond the bytes
after the first two. -/
theorem padded?_eq_some {size : Nat} {digest message : Bytes}
    (h : padded? size digest = some message) :
    message.length = size ∧ 2 ≤ size ∧ Bytes.toNat message < 2 * 256 ^ (size - 2) := by
  simp only [padded?] at h
  split at h
  · rename_i room
    obtain rfl := Option.some.inj h
    generalize sha1Header ++ digest = body at *
    obtain ⟨rest, hrest⟩ : ∃ rest : Bytes,
        rest = List.replicate (size - body.length - 3) 0xFF ++ 0 :: body := ⟨_, rfl⟩
    have length : rest.length = size - 2 := by
      rw [hrest, List.length_append, List.length_replicate, List.length_cons]
      omega
    have small := Bytes.toNat_lt rest
    rw [length] at small
    rw [List.cons_append, List.cons_append, ← hrest]
    refine ⟨?_, by omega, ?_⟩
    · simp only [List.length_cons, length]
      omega
    · rw [Bytes.toNat_cons, Bytes.toNat_cons, length]
      simp only [UInt8.toNat_zero, UInt8.toNat_one, zero_mul, one_mul]
      omega
  · cases h

theorem toNat_lt_modulus {k : PublicKey} (positive : k.modulus ≠ 0) {digest message : Bytes}
    (h : padded? k.size digest = some message) : Bytes.toNat message < k.modulus := by
  obtain ⟨-, room, small⟩ := padded?_eq_some h
  have bits : 1 + 8 * (k.size - 2) ≤ bitLength k.modulus - 1 := by
    rw [PublicKey.size] at room ⊢
    omega
  calc Bytes.toNat message < 2 * 256 ^ (k.size - 2) := small
    _ = 2 ^ (1 + 8 * (k.size - 2)) := by rw [pow_add, pow_mul]; norm_num
    _ ≤ 2 ^ (bitLength k.modulus - 1) := Nat.pow_le_pow_right (by decide) bits
    _ ≤ k.modulus := two_pow_le_of_bitLength positive

/-- Numbers below the modulus fit the bytes of a signature. -/
theorem lt_size {k : PublicKey} {n : Nat} (h : n < k.modulus) : n < 256 ^ k.size := by
  have bits : k.modulus < 2 ^ bitLength k.modulus := by
    rw [bitLength, if_neg (by omega)]
    exact Nat.lt_log2_self
  calc n < k.modulus := h
    _ < 2 ^ bitLength k.modulus := bits
    _ ≤ 2 ^ (8 * k.size) := Nat.pow_le_pow_right (by decide) (by unfold PublicKey.size; omega)
    _ = 256 ^ k.size := by rw [pow_mul]; norm_num

/-- A sound key of two primes accepts its own signatures. -/
theorem PrivateKey.verifiesOwn_of_prime {k : PrivateKey} (sound : k.IsSound)
    (prime1 : k.prime1.Prime) (prime2 : k.prime2.Prime) (two : k.prime1 ≠ k.prime2) :
    k.VerifiesOwn := by
  intro digest signature made
  have positive : k.modulus ≠ 0 := by
    obtain ⟨⟨-, odd, -⟩, -⟩ := sound
    change k.modulus % 2 = 1 at odd
    omega
  simp only [PrivateKey.sign?, Option.bind_eq_bind, Option.bind_eq_some_iff] at made
  obtain ⟨message, padded, made⟩ := made
  obtain rfl := Option.some.inj made
  have small := toNat_lt_modulus (k := k.toPublic) positive padded
  have inRange : powMod (Bytes.toNat message) k.privateExponent k.modulus < k.modulus := by
    rw [powMod_eq]
    exact Nat.mod_lt _ (by omega)
  have read : Bytes.toNat (Bytes.ofNat k.toPublic.size
      (powMod (Bytes.toNat message) k.privateExponent k.modulus)) =
        powMod (Bytes.toNat message) k.privateExponent k.modulus := by
    rw [Bytes.toNat_ofNat, Nat.pow_eq, Nat.mod_eq_of_lt (lt_size (k := k.toPublic) inRange)]
  have undone := PrivateKey.pow_pow sound prime1 prime2 two small
  have written : Bytes.ofNat k.toPublic.size (Bytes.toNat message) = message := by
    rw [← (padded?_eq_some padded).1, Bytes.ofNat_toNat]
  simp only [PublicKey.verify, padded, read, Bytes.length_ofNat, beq_self_eq_true, Bool.true_and,
    Bool.and_eq_true, decide_eq_true_eq, beq_iff_eq]
  refine ⟨inRange, ?_⟩
  change Bytes.ofNat k.toPublic.size (powMod _ k.publicExponent k.modulus) = message
  rw [undone, written]

end Rsa
end DelegatedFetch
