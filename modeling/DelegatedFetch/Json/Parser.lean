import DelegatedFetch.Json.Value
import DelegatedFetch.Text.Decimal
import DelegatedFetch.Text.Hex

/-!
# Reading JSON

A reader takes a value from the front of a text and answers it with the rest.
Blanks may stand between all signs, and a document is one value with blanks
around it. The fuel of the readers is twice the length of the text: every two
steps take at least one character.
-/

namespace DelegatedFetch.Json

def isSpace (c : Char) : Bool := c == ' ' || c == '\t' || c == '\n' || c == '\r'

def skipSpace (cs : List Char) : List Char := cs.dropWhile isSpace

/-- One piece of a text between quotes. -/
inductive Piece where
  | char (c : Char)
  | half
  deriving DecidableEq

def Piece.char? : Piece → Option Char
  | .char c => some c
  | .half => none

/-- The code unit of four hexadecimal digits, and the rest. -/
def codeUnit? : List Char → Option (Nat × List Char)
  | a :: b :: c :: d :: rest => do
    let a ← Hex.charValue? a
    let b ← Hex.charValue? b
    let c ← Hex.charValue? c
    let d ← Hex.charValue? d
    some (((a.toNat * 16 + b.toNat) * 16 + c.toNat) * 16 + d.toNat, rest)
  | _ => none

/-- The character of an escape after `\u`; two escapes make a character beyond the first plane. -/
def unicodeEscape? (cs : List Char) : Option (Piece × List Char) := do
  let (high, rest) ← codeUnit? cs
  if 0xDC00 ≤ high ∧ high ≤ 0xDFFF then some (.half, rest)
  else if 0xD800 ≤ high ∧ high ≤ 0xDBFF then
    match rest with
    | '\\' :: 'u' :: more =>
      let (low, after) ← codeUnit? more
      if 0xDC00 ≤ low ∧ low ≤ 0xDFFF then
        some (.char (Char.ofNat (0x10000 + (high - 0xD800) * 0x400 + (low - 0xDC00))), after)
      else some (.half, rest)
    | _ => some (.half, rest)
  else some (.char (Char.ofNat high), rest)

def escape? : List Char → Option (Piece × List Char)
  | '"' :: rest => some (.char '"', rest)
  | '\\' :: rest => some (.char '\\', rest)
  | '/' :: rest => some (.char '/', rest)
  | 'b' :: rest => some (.char '\x08', rest)
  | 'f' :: rest => some (.char '\x0C', rest)
  | 'n' :: rest => some (.char '\n', rest)
  | 'r' :: rest => some (.char '\r', rest)
  | 't' :: rest => some (.char '\t', rest)
  | 'u' :: rest => unicodeEscape? rest
  | _ => none

/-- The pieces of a text up to its closing quote, and the rest. -/
def textPieces? : Nat → List Char → Option (List Piece × List Char)
  | 0, _ => none
  | _ + 1, [] => none
  | fuel + 1, c :: rest =>
    if c = '"' then some ([], rest)
    else if c = '\\' then do
      let (p, rest) ← escape? rest
      let (ps, rest) ← textPieces? fuel rest
      some (p :: ps, rest)
    else if c.toNat < 0x20 then none
    else do
      let (ps, rest) ← textPieces? fuel rest
      some (.char c :: ps, rest)

/-- The characters of pieces, if no piece is half a pair. -/
def piecesText? (ps : List Piece) : Option String := (ps.mapM Piece.char?).map String.ofList

def spanDigits (cs : List Char) : List Char × List Char := cs.span Char.isDigit

/-- A part that starts with a sign character and has at least one digit after it. -/
def digitsAfter? (cs : List Char) : Option (List Char) :=
  match spanDigits cs with
  | ([], _) => none
  | (_, rest) => some rest

def skipFraction? : List Char → Option (Bool × List Char)
  | '.' :: rest => (digitsAfter? rest).map (true, ·)
  | rest => some (false, rest)

def skipExponent? : List Char → Option (Bool × List Char)
  | c :: rest =>
    if c = 'e' ∨ c = 'E' then
      match rest with
      | s :: more =>
        (digitsAfter? (if s = '+' ∨ s = '-' then more else rest)).map (true, ·)
      | [] => none
    else some (false, c :: rest)
  | [] => some (false, [])

/-- A number without its sign, and the rest. No needless zero stands in front. -/
def unsigned? (cs : List Char) : Option (Value × List Char) := do
  let (digits, rest) := spanDigits cs
  let n ← Decimal.digits? digits
  if digits.length > 1 ∧ digits.head? = some '0' then none
  else
    let (fraction, rest) ← skipFraction? rest
    let (exponent, rest) ← skipExponent? rest
    some (if fraction || exponent then .number else .natural n, rest)

def word? : List Char → List Char → Option (List Char)
  | [], rest => some rest
  | w :: ws, c :: rest => if c = w then word? ws rest else none
  | _ :: _, [] => none

/-- A field under its name, if that is a whole text. -/
def wholeField? (field : Option String × Value) : Option (String × Value) :=
  field.1.map fun name => (name, field.2)

/-- The object of the fields that were read. Its fields cannot be told if a name is broken. -/
def objectOf (fields : List (Option String × Value)) : Value :=
  ((fields.mapM wholeField?).map Value.object).getD .brokenObject

mutual

/-- The value at the front of a text without blanks in front, and the rest. -/
def value? : Nat → List Char → Option (Value × List Char)
  | 0, _ => none
  | _ + 1, [] => none
  | fuel + 1, c :: rest =>
    if c = '"' then do
      let (ps, rest) ← textPieces? (fuel + 1) rest
      some (((piecesText? ps).map Value.text).getD .brokenText, rest)
    else if c = '[' then
      match skipSpace rest with
      | ']' :: rest => some (.array [], rest)
      | rest => do
        let (items, rest) ← items? fuel rest
        some (.array items, rest)
    else if c = '\x7b' then
      match skipSpace rest with
      | '\x7d' :: rest => some (.object [], rest)
      | rest => do
        let (fields, rest) ← fields? fuel rest
        some (objectOf fields, rest)
    else if c = '-' then do
      let (_, rest) ← unsigned? rest
      some (.number, rest)
    else if c.isDigit then unsigned? (c :: rest)
    else if c = 't' then (word? "rue".toList rest).map (.bool true, ·)
    else if c = 'f' then (word? "alse".toList rest).map (.bool false, ·)
    else if c = 'n' then (word? "ull".toList rest).map (.null, ·)
    else none

/-- The items of an array up to its end, at least one, and the rest. -/
def items? : Nat → List Char → Option (List Value × List Char)
  | 0, _ => none
  | fuel + 1, cs => do
    let (v, rest) ← value? fuel cs
    match skipSpace rest with
    | ',' :: rest => do
      let (vs, rest) ← items? fuel (skipSpace rest)
      some (v :: vs, rest)
    | ']' :: rest => some ([v], rest)
    | _ => none

/-- The fields of an object up to its end, at least one, and the rest. -/
def fields? : Nat → List Char → Option (List (Option String × Value) × List Char)
  | 0, _ => none
  | fuel + 1, cs =>
    match cs with
    | '"' :: rest => do
      let (ps, rest) ← textPieces? (fuel + 1) rest
      let name := piecesText? ps
      match skipSpace rest with
      | ':' :: rest => do
        let (v, rest) ← value? fuel (skipSpace rest)
        match skipSpace rest with
        | ',' :: rest => do
          let (fs, rest) ← fields? fuel (skipSpace rest)
          some ((name, v) :: fs, rest)
        | '\x7d' :: rest => some ([(name, v)], rest)
        | _ => none
      | _ => none
    | _ => none

end

def parseChars? (cs : List Char) : Option Value := do
  let (v, rest) ← value? (2 * cs.length + 2) (skipSpace cs)
  if skipSpace rest = [] then some v else none

def parse? (s : String) : Option Value := parseChars? s.toList

end DelegatedFetch.Json
