import ImageLinker.Decimal.Shortest

/-!
# Text of floating-point values

A value is written with the fewest digits that read back. From `1e-4` up to `1e16` it is written
positionally, with at least one digit behind the point; otherwise with an exponent and only the
digits it needs. Zero keeps its sign, and a value that is not a number has none.
-/

namespace ImageLinker.Decimal

namespace Scaled

/-- The digits with a point, as a plain number. `lead` is the exponent of the leading digit. -/
def positional (digits : List Char) (exponent lead : Int) : List Char :=
  if 0 ≤ exponent then
    digits ++ List.replicate exponent.toNat '0' ++ ['.', '0']
  else if 0 ≤ lead then
    digits.take (lead + 1).toNat ++ '.' :: digits.drop (lead + 1).toNat
  else
    '0' :: '.' :: List.replicate (-lead - 1).toNat '0' ++ digits

/-- The digits with a point behind the first of several, and an exponent. -/
def scientific (digits : List Char) (lead : Int) : List Char :=
  let significand :=
    match digits with
    | d :: e :: rest => d :: '.' :: e :: rest
    | _ => digits
  significand ++ 'e' :: (toString lead).toList

/-- The text of a decimal that is not zero. -/
def text (d : Scaled) : String :=
  let digits := Nat.toDigits 10 d.digits
  let lead := d.exponent + digits.length - 1
  String.ofList <|
    if -4 ≤ lead ∧ lead < 16 then positional digits d.exponent lead else scientific digits lead

end Scaled

namespace Value

def text : Value → String
  | nan => "NaN"
  | infinite negative => sign negative ++ "inf"
  | finite negative x =>
    sign negative ++ if x.significand = 0 then "0.0" else x.shortest.text
where
  sign (negative : Bool) : String := if negative then "-" else ""

end Value

end ImageLinker.Decimal
