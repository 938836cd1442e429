/-!
# Hexadecimal text

Numbers are written in lower case behind `0x` and padded with zeros to a least number of digits;
bytes take two digits each.
-/

namespace ImageLinker.Hex

/-- The digits of `n`, at least `width` of them. -/
def digits (width n : Nat) : List Char :=
  (Nat.toDigits 16 n).leftpad width '0'

/-- `n` behind `0x`, with at least `width` digits. -/
def padded (width n : Nat) : String :=
  "0x" ++ String.ofList (digits width n)

/-- The two digits of a byte. -/
def byte (b : UInt8) : String :=
  String.ofList (digits 2 b.toNat)

/-- Bytes with a separator between them. -/
def separated (separator : String) (bytes : List UInt8) : String :=
  separator.intercalate (bytes.map byte)

/-- An address, with at least four digits. -/
def address (n : Nat) : String :=
  padded 4 n

end ImageLinker.Hex
