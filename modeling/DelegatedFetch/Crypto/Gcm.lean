import DelegatedFetch.Bytes

/-!
# Galois counter mode

A block cipher in counter mode, with a tag over the associated data and the
cipher text. Text and tag travel together, the tag last. Decryption recomputes
the tag first; what it accepts is exactly what encryption makes.
-/

namespace DelegatedFetch.Gcm

/-- A block of sixteen bytes as a polynomial over two elements, the first bit its constant term. -/
abbrev Block := BitVec 128

/-- A block from bytes; a short one is filled with zeros. -/
def ofBytes (b : Bytes) : Block :=
  BitVec.ofNat 128 (Bytes.toNat (b ++ List.replicate (16 - b.length) 0))

def toBytes (x : Block) : Bytes := Bytes.ofNat 16 x.toNat

/-- A polynomial times its variable, reduced. -/
def shift (x : Block) : Block :=
  if x.getLsbD 0 then (x >>> 1) ^^^ (0xE1#128 <<< 120) else x >>> 1

/-- The product of polynomials by the first `n` bits of the first, from the constant term on. -/
def mulBits : Nat → Block → Block → Block
  | 0, _, _ => 0#128
  | n + 1, x, y => (if x.getMsbD 0 then y else 0#128) ^^^ mulBits n (x <<< 1) (shift y)

def mul (x y : Block) : Block := mulBits 128 x y

/-- The universal hash of associated data and cipher text under a hash key. -/
def ghash (h : Block) (aad text : Bytes) : Block :=
  let parts := (blocks 16 aad ++ blocks 16 text).map ofBytes
  let lengths := ofBytes (Bytes.ofNat 8 (aad.length * 8) ++ Bytes.ofNat 8 (text.length * 8))
  (parts ++ [lengths]).foldl (fun acc x => mul (acc ^^^ x) h) 0#128

/-- The counter block of a nonce of twelve bytes. -/
def counterBlock (nonce : Bytes) (n : Nat) : Bytes := nonce ++ Bytes.ofNat 4 n

/-- The key stream of a nonce, as many bytes as wanted. The counter of the text starts at two. -/
def keyStream (cipher : Bytes → Bytes) (nonce : Bytes) (len : Nat) : Bytes :=
  ((List.range ((len + 15) / 16)).flatMap fun i => cipher (counterBlock nonce (i + 2))).take len

/-- A text combined with the key stream; doing it twice gives the text back. -/
def crypt (cipher : Bytes → Bytes) (nonce text : Bytes) : Bytes :=
  Bytes.mask text (keyStream cipher nonce text.length)

def tag (cipher : Bytes → Bytes) (nonce aad text : Bytes) : Bytes :=
  let h := ofBytes (cipher (List.replicate 16 0))
  Bytes.mask (toBytes (ghash h aad text)) (cipher (counterBlock nonce 1))

def encrypt (cipher : Bytes → Bytes) (nonce aad plain : Bytes) : Bytes :=
  let text := crypt cipher nonce plain
  text ++ tag cipher nonce aad text

/-- The plain text of a cipher text with its tag, if the tag is right. -/
def decrypt? (cipher : Bytes → Bytes) (nonce aad sealed : Bytes) : Option Bytes :=
  let n := sealed.length - 16
  let text := sealed.take n
  if 16 ≤ sealed.length ∧ sealed.drop n = tag cipher nonce aad text then
    some (crypt cipher nonce text)
  else none

end DelegatedFetch.Gcm
