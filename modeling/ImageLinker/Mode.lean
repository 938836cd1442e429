import ImageLinker.Coded

/-!
# Modes

The two high bits of an opcode byte, by the shape of its operation. An operation that carries a
width holds the tag of the width there, and an operation without operands holds zero.
-/

namespace ImageLinker

/-- Where the argument of an operation comes from. -/
inductive ArgumentMode where
  /-- The operation is between the left and the right register. -/
  | implicit
  /-- The operation is between the left register and a one-byte immediate. -/
  | byteImmediate
  /-- The operation is between the left register and an eight-byte immediate. -/
  | wordImmediate
  /-- A descriptor byte follows and names the operand. -/
  | explicitOperand
deriving DecidableEq, Repr

instance : Coded ArgumentMode where
  table := "ArgumentPrefix"
  all := [.implicit, .byteImmediate, .wordImmediate, .explicitOperand]
  code
    | .implicit => 0
    | .byteImmediate => 1
    | .wordImmediate => 2
    | .explicitOperand => 3
  find?_code m := by cases m <;> rfl

/-- The register that an operation works on. -/
inductive RegisterMode where
  | usesRight
  | usesLeft
deriving DecidableEq, Repr

instance : Coded RegisterMode where
  table := "RegisterPrefix"
  all := [.usesRight, .usesLeft]
  code
    | .usesRight => 1
    | .usesLeft => 2
  find?_code m := by cases m <;> rfl

namespace RegisterMode

/-- An operation works on the left register unless it is told otherwise. -/
instance : Inhabited RegisterMode := ⟨usesLeft⟩

def text : RegisterMode → String
  | usesRight => "r"
  | usesLeft => "l"

/-- The register that is written as the given text. -/
def ofText? (s : String) : Option RegisterMode :=
  (Coded.all : List RegisterMode).find? fun m => m.text == s

end RegisterMode

/-- Where the target of a control transfer comes from. -/
inductive WordMode where
  /-- The target is in the left register. -/
  | usesLeft
  /-- Eight bytes follow and hold the target. -/
  | hasImmediate
  /-- The target is zero, and nothing follows. -/
  | zeroImmediate
deriving DecidableEq, Repr

instance : Coded WordMode where
  table := "WordPrefix"
  all := [.usesLeft, .hasImmediate, .zeroImmediate]
  code
    | .usesLeft => 0
    | .hasImmediate => 1
    | .zeroImmediate => 2
  find?_code m := by cases m <;> rfl

end ImageLinker
