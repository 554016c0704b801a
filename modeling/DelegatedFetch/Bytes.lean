/-!
# Byte strings

Byte strings are lists, so that codecs are structural recursions. Numbers are
written big-endian: `toNat` reads all bytes, `ofNat` writes a fixed count of
them. `blocks` cuts a list into pieces of one length; the last may be shorter.
-/

namespace DelegatedFetch

abbrev Bytes := List UInt8

namespace Bytes

/-- The number whose base-256 digits are the bytes, most significant first. -/
def toNat (b : Bytes) : Nat := b.foldl (fun n x => n * 256 + x.toNat) 0

/-- The low `len` base-256 digits of a number, most significant first. -/
def ofNat : Nat → Nat → Bytes
  | 0, _ => []
  | len + 1, n => ofNat len (n / 256) ++ [UInt8.ofNat n]

@[simp] theorem length_ofNat (len n : Nat) : (ofNat len n).length = len := by
  induction len generalizing n with
  | zero => rfl
  | succ len ih => simp [ofNat, ih]

theorem toNat_append_singleton (b : Bytes) (x : UInt8) :
    toNat (b ++ [x]) = toNat b * 256 + x.toNat := by
  simp [toNat, List.foldl_append]

theorem toNat_ofNat (len n : Nat) : toNat (ofNat len n) = n % Nat.pow 256 len := by
  induction len generalizing n with
  | zero => exact (Nat.mod_one n).symm
  | succ len ih =>
    have digit : (UInt8.ofNat n).toNat = n % 256 := UInt8.toNat_ofNat
    rw [ofNat, toNat_append_singleton, ih, digit, Nat.pow_eq, Nat.pow_eq, Nat.pow_succ',
      Nat.mod_mul, Nat.mul_comm, Nat.add_comm]

/-- Bytes combined with a mask by exclusive or; bytes beyond the mask stay. -/
def mask : Bytes → Bytes → Bytes
  | x :: xs, y :: ys => (x ^^^ y) :: mask xs ys
  | xs, [] => xs
  | [], _ => []

@[simp] theorem length_mask (xs ys : Bytes) : (mask xs ys).length = xs.length := by
  fun_induction mask xs ys with
  | case1 x xs y ys ih => simp [ih]
  | case2 xs => rfl
  | case3 ys => rfl

theorem mask_mask (xs ys : Bytes) : mask (mask xs ys) ys = xs := by
  fun_induction mask xs ys with
  | case1 x xs y ys ih => rw [mask, ih, UInt8.xor_assoc, UInt8.xor_self, UInt8.xor_zero]
  | case2 xs => cases xs <;> rfl
  | case3 ys => cases ys <;> rfl

end Bytes

/-- A list cut into pieces of `size` elements; the last may be shorter, and no piece is empty. -/
def blocks {α : Type} (size : Nat) (xs : List α) : List (List α) :=
  if _h : size = 0 ∨ xs = [] then [] else xs.take size :: blocks size (xs.drop size)
termination_by xs.length
decreasing_by
  have hs : 0 < size := by omega
  have hx : 0 < xs.length := List.length_pos_iff.2 fun e => _h (.inr e)
  simp only [List.length_drop]
  omega

end DelegatedFetch
