/-!
# Sets of characters

A set of characters given by closed ranges of code points, as the tables of character properties are.
-/

namespace ClassMetadata.Unicode

/-- Closed ranges of code points. -/
abbrev Ranges := List (Nat × Nat)

/-- Whether a character lies in one of the ranges. -/
def Ranges.contains (ranges : Ranges) (c : Char) : Bool :=
  ranges.any fun (low, high) => decide (low ≤ c.toNat) && decide (c.toNat ≤ high)

end ClassMetadata.Unicode
