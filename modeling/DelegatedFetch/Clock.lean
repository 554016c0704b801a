import DelegatedFetch.Bytes
import DelegatedFetch.Text.Decimal

/-!
# Time and chance

Two clocks and a supply of random bytes are all that a fetch takes from its
surroundings besides the replies of other hosts. Both are values: a clock is
read and moved, bytes are drawn and counted. Wall time before 1970 reads as
zero, and so late a time that 64 bits do not hold it as the last one.
-/

namespace DelegatedFetch

/-- Wall time in milliseconds since 1970, and a steady time that measures ages. -/
structure Clock where
  wall : Int
  steady : Int
  deriving DecidableEq, Repr

namespace Clock

def millis (c : Clock) : UInt64 := UInt64.ofNatClamp c.wall.toNat

def seconds (c : Clock) : Nat := c.wall.toNat / 1000

def advance (c : Clock) (by_ : Int) : Clock := ⟨c.wall + by_, c.steady + by_⟩

end Clock

/-- An endless supply of random bytes, and how many are used up. -/
structure Entropy where
  byteAt : Nat → UInt8
  drawn : Nat

namespace Entropy

def draw (e : Entropy) (n : Nat) : Bytes × Entropy :=
  ((List.range n).map fun i => e.byteAt (e.drawn + i), { e with drawn := e.drawn + n })

@[simp] theorem length_draw (e : Entropy) (n : Nat) : (e.draw n).1.length = n := by
  simp [draw]

end Entropy
end DelegatedFetch
