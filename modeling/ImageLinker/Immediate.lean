import ImageLinker.Bytes
import ImageLinker.Decimal.Layout
import ImageLinker.Symbol
import ImageLinker.Width

/-!
# Immediates

A value that stands in the code behind an opcode byte. Only the low bytes that its width asks for
are written. A symbol takes the eight bytes of an address, which are zero until the address is
known.
-/

namespace ImageLinker

/-- A value that an instruction carries. The bits may exceed the width. -/
inductive Immediate where
  | integer (width : Width) (bits : UInt64)
  | float (width : Width) (bits : UInt64)
  | symbol (id : SymbolId)
deriving DecidableEq, Repr

namespace Immediate

/-- An integer in two's complement of the given width. -/
def ofInt (width : Width) (value : Int) : Immediate :=
  integer width (UInt64.ofNat (value % Nat.pow 256 width.bytes).toNat)

def width : Immediate → Width
  | integer width _ => width
  | float width _ => width
  | symbol _ => .bits64

/-- The format in which a float of the given width is read: single at four bytes, otherwise
double. -/
def format : Width → Decimal.Format
  | .bits32 => .single
  | _ => .double

/-- Whether the value is zero. Both floating-point zeros are; a symbol never is. -/
def isZero : Immediate → Bool
  | integer _ bits => bits == 0
  | float width bits => (format width).isZero bits.toNat
  | symbol _ => false

/-- The symbol that the value refers to. -/
def symbol? : Immediate → Option SymbolId
  | symbol id => some id
  | _ => none

/-- The bytes as they are written before the addresses of symbols are known. -/
def bytes : Immediate → List UInt8
  | integer width bits => leBytes width.bytes bits.toNat
  | float width bits => leBytes width.bytes bits.toNat
  | symbol _ => leBytes addressSize 0

@[simp] theorem length_bytes (v : Immediate) : v.bytes.length = v.width.bytes := by
  cases v <;> simp [bytes, width, Width.bytes, addressSize]

/-- Integers are written in hexadecimal with two digits per byte, floats in decimal. -/
def text : Immediate → String
  | integer width bits => Hex.padded (2 * width.bytes) bits.toNat
  | float width bits => ((format width).decode bits.toNat).text
  | symbol id => s!"@{id.text}"

end Immediate

end ImageLinker
