/-!
# Decimal numbers of 64 bits

Reading takes an optional `+`, then digits only, and refuses numbers that do
not fit 64 bits.
-/

namespace DelegatedFetch.Decimal

/-- The number that a list of digits writes, if all are digits and there is one. -/
def digits? (cs : List Char) : Option Nat :=
  if cs ≠ [] ∧ cs.all Char.isDigit then
    some (cs.foldl (fun n c => n * 10 + (c.toNat - 48)) 0)
  else none

def toUInt64? (n : Nat) : Option UInt64 := if n < UInt64.size then some (UInt64.ofNat n) else none

def parse? (s : String) : Option UInt64 := do
  let n ← match s.toList with
    | '+' :: ds => digits? ds
    | ds => digits? ds
  toUInt64? n

def maxUInt64 : UInt64 := 0xFFFFFFFFFFFFFFFF

/-- Sum that stays at the greatest number when it does not fit. -/
def satAdd (a b : UInt64) : UInt64 := (toUInt64? (a.toNat + b.toNat)).getD maxUInt64

def satMul (a b : UInt64) : UInt64 := (toUInt64? (a.toNat * b.toNat)).getD maxUInt64

/-- Difference that stays at zero when it would be negative. -/
def satSub (a b : UInt64) : UInt64 := UInt64.ofNat (a.toNat - b.toNat)

theorem toNat_satSub (a b : UInt64) : (satSub a b).toNat = a.toNat - b.toNat :=
  UInt64.toNat_ofNat_of_lt' (Nat.lt_of_le_of_lt (Nat.sub_le _ _) a.toNat_lt)

end DelegatedFetch.Decimal
