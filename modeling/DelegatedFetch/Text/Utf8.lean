import DelegatedFetch.Bytes

/-!
# UTF-8

A text is written as UTF-8 and read back in two ways: `decode?` refuses
ill-formed bytes, `decodeLossy` puts U+FFFD in place of each maximal
ill-formed part. Both are driven by one reader of a single character, so
they differ only in what they do with a bad part.
-/

namespace DelegatedFetch.Utf8

def encode (s : String) : Bytes := s.toList.flatMap String.utf8EncodeChar

theorem encode_append (s t : String) : encode (s ++ t) = encode s ++ encode t := by
  simp [encode]

/-- A byte `10xxxxxx` that continues a character. -/
def isTail (b : UInt8) : Bool := 0x80 ≤ b && b ≤ 0xBF

/-- The bytes that may follow the first byte of a character of three or four bytes: shortest
forms, no surrogates, nothing above U+10FFFF. -/
def isSecond (first second : UInt8) : Bool :=
  isTail second &&
    !(first == 0xE0 && second < 0xA0) && !(first == 0xED && second > 0x9F) &&
    !(first == 0xF0 && second < 0x90) && !(first == 0xF4 && second > 0x8F)

def tailBits (b : UInt8) : Nat := b.toNat % 64

/-- What stands at the front of some bytes: the character, if it is well formed, and how many
bytes after the first belong to it or to the ill-formed part. -/
def readChar (a : UInt8) (rest : Bytes) : Option Char × Nat :=
  if a < 0x80 then (some (Char.ofNat a.toNat), 0)
  else if 0xC2 ≤ a && a ≤ 0xDF then
    match rest with
    | b :: _ =>
      if isTail b then (some (Char.ofNat (a.toNat % 32 * 64 + tailBits b)), 1) else (none, 0)
    | [] => (none, 0)
  else if 0xE0 ≤ a && a ≤ 0xEF then
    match rest with
    | b :: r =>
      if isSecond a b then
        match r with
        | c :: _ =>
          if isTail c then
            (some (Char.ofNat ((a.toNat % 16 * 64 + tailBits b) * 64 + tailBits c)), 2)
          else (none, 1)
        | [] => (none, 1)
      else (none, 0)
    | [] => (none, 0)
  else if 0xF0 ≤ a && a ≤ 0xF4 then
    match rest with
    | b :: r =>
      if isSecond a b then
        match r with
        | c :: r =>
          if isTail c then
            match r with
            | d :: _ =>
              if isTail d then
                (some (Char.ofNat
                  (((a.toNat % 8 * 64 + tailBits b) * 64 + tailBits c) * 64 + tailBits d)), 3)
              else (none, 2)
            | [] => (none, 2)
          else (none, 1)
        | [] => (none, 1)
      else (none, 0)
    | [] => (none, 0)
  else (none, 0)

/-- The characters that some bytes write, each ill-formed part as one U+FFFD. -/
def lossyChars : Bytes → List Char
  | [] => []
  | a :: rest =>
    let (c, n) := readChar a rest
    c.getD '\uFFFD' :: lossyChars (rest.drop n)
termination_by b => b.length
decreasing_by simp only [List.length_cons, List.length_drop]; omega

def decodeLossy (b : Bytes) : String := String.ofList (lossyChars b)

def chars? : Bytes → Option (List Char)
  | [] => some []
  | a :: rest =>
    match readChar a rest with
    | (some c, n) => (chars? (rest.drop n)).map (c :: ·)
    | (none, _) => none
termination_by b => b.length
decreasing_by simp only [List.length_cons, List.length_drop]; omega

def decode? (b : Bytes) : Option String := (chars? b).map String.ofList

end DelegatedFetch.Utf8
