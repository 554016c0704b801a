/-!
# Classes of characters by their values

Properties of characters that no rule describes are lists of ranges of their
values.
-/

namespace DelegatedFetch

/-- Whether the value of a character stands in one of some ranges, ends included. -/
def inRanges (ranges : List (Nat × Nat)) (c : Char) : Bool :=
  ranges.any fun (first, last) => first ≤ c.toNat && c.toNat ≤ last

end DelegatedFetch
