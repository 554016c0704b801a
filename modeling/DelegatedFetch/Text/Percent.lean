import DelegatedFetch.Text.Hex
import DelegatedFetch.Text.Utf8

/-!
# Percent encoding

Unreserved characters (ASCII letters, digits and `-._~`) stand for
themselves, every other byte of the UTF-8 form is written `%XX` in upper
case. Reading replaces complete escapes and leaves everything else as it is;
what results need not be UTF-8, so text is read back lossily.
-/

namespace DelegatedFetch.Percent

def isAlphanumeric (b : UInt8) : Bool :=
  (48 ≤ b && b ≤ 57) || (65 ≤ b && b ≤ 90) || (97 ≤ b && b ≤ 122)

/-- The bytes that are never escaped in signatures: letters, digits and `-._~`. -/
def isUnreserved (b : UInt8) : Bool :=
  isAlphanumeric b || b == 0x2D || b == 0x2E || b == 0x5F || b == 0x7E

def escape (b : UInt8) : List Char := ['%', Hex.upperDigit (b >>> 4), Hex.upperDigit (b &&& 15)]

/-- Some bytes, those outside a class escaped. The class holds ASCII only. -/
def encodeKeeping (keep : UInt8 → Bool) (b : Bytes) : List Char :=
  b.flatMap fun x => if keep x then [Char.ofNat x.toNat] else escape x

def encode (s : String) : String := String.ofList (encodeKeeping isUnreserved (Utf8.encode s))

/-- Some bytes with each complete escape replaced by the byte it names. -/
def decodeBytes : Bytes → Bytes
  | a :: h :: l :: rest =>
    if a = 0x25 then
      match Hex.value? h, Hex.value? l with
      | some x, some y => (x <<< 4 ||| y) :: decodeBytes rest
      | _, _ => a :: decodeBytes (h :: l :: rest)
    else a :: decodeBytes (h :: l :: rest)
  | short => short

def decode (s : String) : String := Utf8.decodeLossy (decodeBytes (Utf8.encode s))

end DelegatedFetch.Percent
