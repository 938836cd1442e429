/-!
# Binary floating-point values

The bits of a floating-point number and the exact value they stand for. A finite value is
`significand * 2 ^ exponent`; the reals that round to it form an interval whose lower half is
shorter when the significand is the least of its exponent.
-/

namespace ImageLinker.Decimal

/-- How many bits of a floating-point number hold its fraction and its exponent. -/
structure Format where
  fractionBits : Nat
  exponentBits : Nat
deriving DecidableEq, Repr

namespace Format

def single : Format := ⟨23, 8⟩

def double : Format := ⟨52, 11⟩

/-- The position of the sign bit, which is the number of bits below it. -/
def signBit (f : Format) : Nat :=
  f.fractionBits + f.exponentBits

/-- The exponent of the values closest to zero. -/
def leastExponent (f : Format) : Int :=
  2 - Int.pow 2 (f.exponentBits - 1) - f.fractionBits

end Format

/-- A finite magnitude, `significand * 2 ^ exponent`. -/
structure Binary where
  significand : Nat
  exponent : Int
  /-- The value below is half as far away as the value above. -/
  narrowBelow : Bool
deriving DecidableEq, Repr

/-- What the bits of a floating-point number stand for. -/
inductive Value where
  | nan
  | infinite (negative : Bool)
  | finite (negative : Bool) (magnitude : Binary)
deriving DecidableEq, Repr

namespace Format

/-- The value of a bit pattern. Bits above the sign bit are not looked at. -/
def decode (f : Format) (bits : Nat) : Value :=
  let fraction := bits % Nat.pow 2 f.fractionBits
  let exponent := bits / Nat.pow 2 f.fractionBits % Nat.pow 2 f.exponentBits
  let negative := bits.testBit f.signBit
  if exponent = 0 then
    .finite negative ⟨fraction, f.leastExponent, false⟩
  else if exponent < Nat.pow 2 f.exponentBits - 1 then
    .finite negative
      ⟨Nat.pow 2 f.fractionBits + fraction, f.leastExponent + (exponent - 1 : Nat),
        fraction == 0 && 1 < exponent⟩
  else if fraction = 0 then
    .infinite negative
  else
    .nan

/-- Whether the bits are those of zero, of either sign. -/
def isZero (f : Format) (bits : Nat) : Bool :=
  bits % Nat.pow 2 f.signBit == 0

end Format

end ImageLinker.Decimal
