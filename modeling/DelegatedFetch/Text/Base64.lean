import DelegatedFetch.Bytes

/-!
# Base64

Two alphabets and two ways to end: signatures and keys use the standard
alphabet with padding, sealed blobs the one for URLs without. Reading is
strict. It takes exactly the texts that writing makes: no other padding, no
foreign characters, and the bits that the last character has in excess are
zero.
-/

namespace DelegatedFetch.Base64

/-- The last two characters of the alphabet, and whether the text is padded with `=`. -/
structure Format where
  char62 : Char
  char63 : Char
  padded : Bool

def standard : Format := ⟨'+', '/', true⟩

def url : Format := ⟨'-', '_', false⟩

def Format.digit (f : Format) (n : Nat) : Char :=
  if n < 26 then Char.ofNat (65 + n)
  else if n < 52 then Char.ofNat (71 + n)
  else if n < 62 then Char.ofNat (n - 4)
  else if n = 62 then f.char62
  else f.char63

def Format.value? (f : Format) (c : Char) : Option Nat :=
  if 'A' ≤ c ∧ c ≤ 'Z' then some (c.toNat - 65)
  else if 'a' ≤ c ∧ c ≤ 'z' then some (c.toNat - 71)
  else if '0' ≤ c ∧ c ≤ '9' then some (c.toNat + 4)
  else if c = f.char62 then some 62
  else if c = f.char63 then some 63
  else none

def Format.pad (f : Format) (n : Nat) : List Char := if f.padded then List.replicate n '=' else []

/-- Three bytes are four characters; one or two at the end are two or three and the padding. -/
def encodeChars (f : Format) : Bytes → List Char
  | a :: b :: c :: rest =>
    let n := (a.toNat * 256 + b.toNat) * 256 + c.toNat
    f.digit (n / 262144) :: f.digit (n / 4096 % 64) :: f.digit (n / 64 % 64) ::
      f.digit (n % 64) :: encodeChars f rest
  | [a, b] =>
    let n := a.toNat * 256 + b.toNat
    f.digit (n / 1024) :: f.digit (n / 16 % 64) :: f.digit (n % 16 * 4) :: f.pad 1
  | [a] => f.digit (a.toNat / 4) :: f.digit (a.toNat % 4 * 16) :: f.pad 2
  | [] => []

def encode (f : Format) (b : Bytes) : String := String.ofList (encodeChars f b)

/-- The bytes of the last, incomplete group. -/
def decodeEnd? (f : Format) : List Char → Option Bytes
  | [] => some []
  | w :: x :: tail => do
    let w ← f.value? w
    let x ← f.value? x
    if tail = f.pad 2 then
      if x % 16 = 0 then some [UInt8.ofNat (w * 4 + x / 16)] else none
    else match tail with
      | y :: tail => do
        let y ← f.value? y
        if tail = f.pad 1 ∧ y % 4 = 0 then
          some [UInt8.ofNat (w * 4 + x / 16), UInt8.ofNat (x % 16 * 16 + y / 4)]
        else none
      | [] => none
  | [_] => none

def decodeChars? (f : Format) : List Char → Option Bytes
  | w :: x :: y :: z :: rest =>
    match f.value? w, f.value? x, f.value? y, f.value? z with
    | some w, some x, some y, some z => do
      let bytes ← decodeChars? f rest
      some (UInt8.ofNat (w * 4 + x / 16) :: UInt8.ofNat (x % 16 * 16 + y / 4) ::
        UInt8.ofNat (y % 4 * 64 + z) :: bytes)
    | _, _, _, _ => decodeEnd? f (w :: x :: y :: z :: rest)
  | short => decodeEnd? f short

/-- The bytes that a base64 text writes, if it is written as `encode` does. -/
def decode? (f : Format) (s : String) : Option Bytes := decodeChars? f s.toList

end DelegatedFetch.Base64
