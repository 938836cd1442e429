/-!
# Sets of characters

A set of characters is given by the ranges of its code points.
-/

namespace ImageLinker

/-- A set of characters as closed ranges of code points, ascending and apart. -/
structure CharSet where
  ranges : List (Nat × Nat)
deriving DecidableEq, Repr

namespace CharSet

def contains (s : CharSet) (c : Char) : Bool :=
  s.ranges.any fun (first, last) => first ≤ c.toNat && c.toNat ≤ last

end CharSet

end ImageLinker
