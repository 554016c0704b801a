import DelegatedFetch.Bytes

/-!
# Distinguished encoding

An element is a tag, a length and that many bytes of content. Lengths have
one form only, and so do numbers: the reader refuses every other one. What a
reader answers comes with the bytes after the element.
-/

namespace DelegatedFetch.Der

/-- The tags that key documents use. -/
inductive Tag where
  | integer
  | bitString
  | octetString
  | null
  | objectId
  | sequence
  deriving DecidableEq

def Tag.byte : Tag → UInt8
  | .integer => 0x02
  | .bitString => 0x03
  | .octetString => 0x04
  | .null => 0x05
  | .objectId => 0x06
  | .sequence => 0x30

/-- A length and what follows it: one byte below 128, else the count of its bytes and the shortest
such bytes. -/
def length? : Bytes → Option (Nat × Bytes)
  | [] => none
  | b :: rest =>
    if b < 0x80 then some (b.toNat, rest)
    else
      let count := b.toNat - 0x80
      let digits := rest.take count
      let n := Bytes.toNat digits
      if 1 ≤ count ∧ count ≤ 4 ∧ digits.length = count ∧ digits.head? ≠ some 0 ∧ 128 ≤ n then
        some (n, rest.drop count)
      else none

/-- The first element of any tag: tag byte, content, and the bytes after it. -/
def any? : Bytes → Option (UInt8 × Bytes × Bytes)
  | [] => none
  | tag :: rest => do
    let (n, rest) ← length? rest
    if n ≤ rest.length then some (tag, rest.take n, rest.drop n) else none

/-- The content of an element of a tag at the front, and the bytes after it. -/
def element? (t : Tag) (b : Bytes) : Option (Bytes × Bytes) := do
  let (tag, content, rest) ← any? b
  if tag = t.byte then some (content, rest) else none

/-- The number whose content bytes these are: no sign bit, no needless zero in front. -/
def naturalOfContent? : Bytes → Option Nat
  | [] => none
  | [b] => if b < 0x80 then some b.toNat else none
  | b :: c :: rest =>
    if b = 0 then if 0x80 ≤ c then some (Bytes.toNat (c :: rest)) else none
    else if b < 0x80 then some (Bytes.toNat (b :: c :: rest))
    else none

def natural? (b : Bytes) : Option (Nat × Bytes) := do
  let (content, rest) ← element? .integer b
  let n ← naturalOfContent? content
  some (n, rest)

def naturals? : Nat → Bytes → Option (List Nat × Bytes)
  | 0, b => some ([], b)
  | k + 1, b => do
    let (n, rest) ← natural? b
    let (ns, rest) ← naturals? k rest
    some (n :: ns, rest)

/-- All bytes are elements whose tags satisfy a test. -/
def elementsWith (p : UInt8 → Bool) : Nat → Bytes → Bool
  | _, [] => true
  | 0, _ :: _ => false
  | fuel + 1, b =>
    match any? b with
    | some (tag, _, rest) => p tag && elementsWith p fuel rest
    | none => false

end DelegatedFetch.Der
