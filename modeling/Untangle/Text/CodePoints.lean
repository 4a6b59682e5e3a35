/-!
# Sets of characters

A set is given by ranges of code points.
-/
namespace Untangle

/-- Inclusive ranges of code points in increasing order. -/
abbrev CodePoints := List (Nat × Nat)

def CodePoints.contains (ranges : CodePoints) (c : Char) : Bool :=
  ranges.any fun (first, last) => first ≤ c.toNat && c.toNat ≤ last

end Untangle
