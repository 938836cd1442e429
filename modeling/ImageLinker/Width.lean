import ImageLinker.Coded

/-!
# Widths of immediates

An immediate takes one, two, four or eight bytes. The byte count is the code of the width; the
two-bit tag that some opcode bytes carry is its binary logarithm (`ofTag_tag`).
-/

namespace ImageLinker

/-- The number of bits needed to write `n`: the one-based index of its highest set bit. -/
def bitLength (n : Nat) : Nat :=
  if n = 0 then 0 else n.log2 + 1

/-- How many bits an immediate has. -/
inductive Width where
  | bits8
  | bits16
  | bits32
  | bits64
deriving DecidableEq, Repr

namespace Width

def bytes : Width → Nat
  | bits8 => 1
  | bits16 => 2
  | bits32 => 4
  | bits64 => 8

def text : Width → String
  | bits8 => "i8"
  | bits16 => "i16"
  | bits32 => "i32"
  | bits64 => "i64"

instance : Coded Width where
  table := "Width"
  all := [bits8, bits16, bits32, bits64]
  code w := UInt8.ofNat w.bytes
  find?_code w := by cases w <;> rfl

/-- The two-bit tag of a width, the binary logarithm of its byte count. -/
def tag (w : Width) : UInt8 :=
  UInt8.ofNat (bitLength w.bytes - 1)

/-- The width with a given tag. Only the two low bits of `t` count. -/
def ofTag (t : UInt8) : Width :=
  match (t &&& 3).toNat with
  | 0 => bits8
  | 1 => bits16
  | 2 => bits32
  | _ => bits64

@[simp] theorem ofTag_tag (w : Width) : ofTag w.tag = w := by
  cases w <;> decide

/-- The width that is written as the given text. -/
def ofText? (s : String) : Option Width :=
  (Coded.all : List Width).find? fun w => w.text == s

end Width

end ImageLinker
