import DelegatedFetch.Bytes

/-!
# Hexadecimal text

Each byte is two digits, the high half first. Writing uses lower case for
identifiers and digests, upper case inside percent escapes; reading accepts
both.
-/

namespace DelegatedFetch.Hex

def lowerDigit (n : UInt8) : Char :=
  if n < 10 then Char.ofNat (48 + n.toNat) else Char.ofNat (87 + n.toNat)

def upperDigit (n : UInt8) : Char :=
  if n < 10 then Char.ofNat (48 + n.toNat) else Char.ofNat (55 + n.toNat)

/-- The value of a digit given as an ASCII byte, in either case. -/
def value? (b : UInt8) : Option UInt8 :=
  if 48 ≤ b && b ≤ 57 then some (b - 48)
  else if 65 ≤ b && b ≤ 70 then some (b - 55)
  else if 97 ≤ b && b ≤ 102 then some (b - 87)
  else none

def charValue? (c : Char) : Option UInt8 :=
  if c.toNat < 128 then value? (UInt8.ofNat c.toNat) else none

/-- The character whose code some digits at the front write, and the rest. -/
def codeChar? (digits : Nat) (cs : List Char) : Option (Char × List Char) := do
  let code ← (cs.take digits).foldlM (fun n c => do return n * 16 + (← charValue? c).toNat) 0
  if h : (cs.take digits).length = digits ∧ code.isValidChar then
    some (Char.ofNatAux code h.2, cs.drop digits)
  else none

def encode (b : Bytes) : String :=
  String.ofList (b.flatMap fun (x : UInt8) => [lowerDigit (x >>> 4), lowerDigit (x &&& 15)])

def decodeChars? : List Char → Option Bytes
  | [] => some []
  | h :: l :: rest => do
    let h ← charValue? h
    let l ← charValue? l
    let rest ← decodeChars? rest
    some ((h <<< 4 ||| l) :: rest)
  | [_] => none

def decode? (s : String) : Option Bytes := decodeChars? s.toList

end DelegatedFetch.Hex
