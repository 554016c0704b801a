import DelegatedFetch.Text.Decimal

/-!
# Numerals

Which texts write a number with a point or an exponent: a sign or none, digits
on at least one side of the point, and an exponent or none. A numeral is
finite when its value does not round to infinity in double precision.
-/

namespace DelegatedFetch.Numeral

def dropSign : List Char → List Char
  | c :: cs => if c = '+' ∨ c = '-' then cs else c :: cs
  | [] => []

/-- The digits of a numeral around its point, its exponent, and the point's place: `digits` has
`places` digits after the point. -/
structure Parts where
  digits : List Char
  places : Nat
  exponent : Int
  deriving DecidableEq, Repr

def exponent? (cs : List Char) : Option Int := do
  let n ← Decimal.digits? (dropSign cs)
  return if cs.head? = some '-' then -n else n

def parts? (cs : List Char) : Option Parts := do
  let before := cs.takeWhile Char.isDigit
  let (after, rest) := match cs.dropWhile Char.isDigit with
    | '.' :: rest => (rest.takeWhile Char.isDigit, rest.dropWhile Char.isDigit)
    | rest => ([], rest)
  if before ++ after = [] then none
  else
    match rest with
    | [] => some ⟨before ++ after, after.length, 0⟩
    | c :: exponent =>
      if c = 'e' ∨ c = 'E' then some ⟨before ++ after, after.length, ← exponent? exponent⟩ else none

def isNumeral (cs : List Char) : Bool := (parts? (dropSign cs)).isSome

/-- The value of some parts is below the bound from which doubles are infinite. -/
def Parts.isFinite (p : Parts) : Bool :=
  let digits := p.digits.dropWhile (· == '0')
  let bound := Nat.pow 2 1024 - Nat.pow 2 970
  let shift := p.exponent - p.places
  digits.isEmpty || (digits.length + shift ≤ 309 &&
    ((Decimal.digits? digits).getD 0 * Nat.pow 10 shift.toNat <
      bound * Nat.pow 10 (min 400 (-shift).toNat)))

def isFiniteNumeral (cs : List Char) : Bool := (parts? (dropSign cs)).any Parts.isFinite

end DelegatedFetch.Numeral
