import ImageLinker.Decimal.Binary

/-!
# The fewest digits that read back

Among the decimals that round to a given binary value, one with the fewest digits, and of those
the closest to the value; of two equally close the larger. The search is exact: it tries the
decimal grids from the coarsest on, and on each the two neighbours of the value.
-/

namespace ImageLinker.Decimal

/-- A decimal, `digits * 10 ^ exponent`. -/
structure Scaled where
  digits : Nat
  exponent : Int
deriving DecidableEq, Repr

namespace Scaled

/-- How `digits * 10 ^ exponent` compares with `n * 2 ^ j`. -/
def compareBinary (d : Scaled) (n : Nat) (j : Int) : Ordering :=
  compare (d.digits * Nat.pow 10 d.exponent.toNat * Nat.pow 2 (-j).toNat)
    (n * Nat.pow 2 j.toNat * Nat.pow 10 (-d.exponent).toNat)

/-- Moves trailing zeros of the digits into the exponent. -/
def strip (digits : Nat) (exponent : Int) : Scaled :=
  if _ : digits % 10 = 0 ∧ digits ≠ 0 then
    strip (digits / 10) (exponent + 1)
  else
    ⟨digits, exponent⟩
termination_by digits
decreasing_by omega

end Scaled

namespace Binary

/-- The ends of the interval of reals that round to this value, in quarters of
`2 ^ exponent`: they lie half way to the neighbouring values. -/
def roundingInterval (x : Binary) : Nat × Nat :=
  let quarters := 4 * x.significand
  (quarters - (if x.narrowBelow then 1 else 2), quarters + 2)

/-- Whether a decimal rounds to this value. The ends of the interval do exactly when the
significand is even. -/
def readsBack (x : Binary) (d : Scaled) : Bool :=
  let (low, high) := x.roundingInterval
  match d.compareBinary low (x.exponent - 2), d.compareBinary high (x.exponent - 2) with
  | .gt, .lt => true
  | .eq, _ => x.significand % 2 == 0
  | _, .eq => x.significand % 2 == 0
  | _, _ => false

/-- The least `k` with `x < 10 ^ k`, for a value that is not zero. It is the rounded product of the
binary logarithm with `log10 2`, or one of the two numbers above that. -/
def scale (x : Binary) : Int :=
  let estimate := Int.fdiv ((x.significand.log2 + x.exponent) * 30103) 100000
  let above (k : Int) : Bool := (⟨1, k⟩ : Scaled).compareBinary x.significand x.exponent == .gt
  if above estimate then estimate
  else if above (estimate + 1) then estimate + 1
  else estimate + 2

/-- The decimal with the given exponent that reads back and is closest to the value, if one of the
value's two neighbours reads back. -/
def onGrid (x : Binary) (exponent : Int) : Option Scaled :=
  let quotient :=
    x.significand * Nat.pow 2 x.exponent.toNat * Nat.pow 10 (-exponent).toNat /
      (Nat.pow 2 (-x.exponent).toNat * Nat.pow 10 exponent.toNat)
  let below : Scaled := ⟨quotient, exponent⟩
  let above : Scaled := ⟨quotient + 1, exponent⟩
  let middle : Scaled := ⟨2 * quotient + 1, exponent⟩
  match x.readsBack below, x.readsBack above with
  | true, true =>
    some (if middle.compareBinary (2 * x.significand) x.exponent == .gt then below else above)
  | true, false => some below
  | false, true => some above
  | false, false => none

/-- The value itself as a decimal. -/
def exact (x : Binary) : Scaled :=
  ⟨x.significand * Nat.pow 2 x.exponent.toNat * Nat.pow 5 (-x.exponent).toNat, min x.exponent 0⟩

/-- The decimal with the fewest digits that reads back, for a value that is not zero. Seventeen
digits are enough for every double; were they not, the exact value would be written. -/
def shortest (x : Binary) : Scaled :=
  let k := x.scale
  let found := (List.range 17).findSome? fun n => x.onGrid (k - (n + 1 : Nat))
  let d := found.getD x.exact
  Scaled.strip d.digits d.exponent

end Binary

end ImageLinker.Decimal
