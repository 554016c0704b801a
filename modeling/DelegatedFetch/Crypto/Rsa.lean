import DelegatedFetch.Bytes

/-!
# RSA signatures

A private key is checked when it is made: its modulus is the product of its
two primes, and the exponents undo each other modulo each prime less one. A
signature is the padded digest raised to the private exponent; it verifies
when raising it to the public exponent gives the padded digest back.
-/

namespace DelegatedFetch.Rsa

def powMod (base exponent modulus : Nat) : Nat :=
  if _h : exponent = 0 then 1 % modulus
  else
    let half := powMod (base * base % modulus) (exponent / 2) modulus
    if exponent % 2 = 1 then base * half % modulus else half
termination_by exponent
decreasing_by omega

structure PublicKey where
  modulus : Nat
  exponent : Nat
  deriving DecidableEq, Repr

/-- A public key with its private exponent and the two primes of its modulus. -/
structure PrivateKey where
  modulus : Nat
  publicExponent : Nat
  privateExponent : Nat
  prime1 : Nat
  prime2 : Nat
  deriving DecidableEq, Repr

def PrivateKey.toPublic (k : PrivateKey) : PublicKey := ⟨k.modulus, k.publicExponent⟩

def bitLength (n : Nat) : Nat := if n = 0 then 0 else n.log2 + 1

/-- The bytes of a signature under a key. -/
def PublicKey.size (k : PublicKey) : Nat := (bitLength k.modulus + 7) / 8

/-- Public numbers that are fit for use: an odd modulus of at most 4096 bits, an odd exponent below
it and below 2³³. -/
def PublicKey.IsFit (k : PublicKey) : Prop :=
  bitLength k.modulus ≤ 4096 ∧ k.modulus % 2 = 1 ∧ k.exponent < k.modulus ∧
    k.exponent % 2 = 1 ∧ 2 ≤ k.exponent ∧ k.exponent < Nat.pow 2 33

instance (k : PublicKey) : Decidable k.IsFit := by unfold PublicKey.IsFit; infer_instance

/-- Private numbers that belong to the public ones. -/
def PrivateKey.IsSound (k : PrivateKey) : Prop :=
  k.toPublic.IsFit ∧ 1 < k.prime1 ∧ 1 < k.prime2 ∧ k.prime1 * k.prime2 = k.modulus ∧
    1 ≤ k.publicExponent * k.privateExponent ∧
    (k.publicExponent * k.privateExponent - 1) % (k.prime1 - 1) = 0 ∧
    (k.publicExponent * k.privateExponent - 1) % (k.prime2 - 1) = 0

instance (k : PrivateKey) : Decidable k.IsSound := by unfold PrivateKey.IsSound; infer_instance

/-- What stands before a SHA-1 digest in a padded message. -/
def sha1Header : Bytes :=
  [0x30, 0x21, 0x30, 0x09, 0x06, 0x05, 0x2B, 0x0E, 0x03, 0x02, 0x1A, 0x05, 0x00, 0x04, 0x14]

/-- A SHA-1 digest padded to a length, if the length has room for eight bytes of filling. -/
def padded? (size : Nat) (digest : Bytes) : Option Bytes :=
  let body := sha1Header ++ digest
  if body.length + 11 ≤ size then
    some (0 :: 1 :: List.replicate (size - body.length - 3) 0xFF ++ 0 :: body)
  else none

/-- The signature of a SHA-1 digest, if the key has room for it. -/
def PrivateKey.sign? (k : PrivateKey) (digest : Bytes) : Option Bytes := do
  let size := k.toPublic.size
  let message ← padded? size digest
  some (Bytes.ofNat size (powMod (Bytes.toNat message) k.privateExponent k.modulus))

def PublicKey.verify (k : PublicKey) (digest signature : Bytes) : Bool :=
  match padded? k.size digest with
  | some message =>
    let s := Bytes.toNat signature
    signature.length == k.size && s < k.modulus &&
      Bytes.ofNat k.size (powMod s k.exponent k.modulus) == message
  | none => false

end DelegatedFetch.Rsa
