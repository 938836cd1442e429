import ImageLinker.Block

/-!
# Entry points

The ways in which an operation can be written into a block, one per form that its shape allows. The
types see to it that the form fits the operation and that a target has eight bytes, so nothing is
left to check but that a source is not the descriptor of an immediate.
-/

namespace ImageLinker

/-- A value that can be the target of a control transfer: all of them take eight bytes. -/
inductive Target where
  | integer (bits : UInt64)
  | float (bits : UInt64)
  | symbol (id : SymbolId)
deriving DecidableEq, Repr

namespace Target

def immediate : Target → Immediate
  | integer bits => .integer .bits64 bits
  | float bits => .float .bits64 bits
  | symbol id => .symbol id

/-- The target that an immediate of eight bytes is. -/
def ofImmediate? : Immediate → Option Target
  | .integer .bits64 bits => some (integer bits)
  | .float .bits64 bits => some (float bits)
  | .symbol id => some (symbol id)
  | _ => none

@[simp] theorem width_immediate (t : Target) : t.immediate.width = .bits64 := by
  cases t <;> rfl

end Target

/-- An operation with operands that fit its shape. -/
inductive Entry where
  /-- Between the left and the right register. -/
  | implicit (op : Operation.OfShape .argument)
  /-- Between the left register and a value. -/
  | immediate (op : Operation.OfShape .argument) (value : Immediate)
  /-- Between the left register and what a descriptor names. -/
  | source (op : Operation.OfShape .argument) (descriptor : Source)
  /-- On the register that is used by default. -/
  | register (op : Operation.OfShape .register)
  /-- On a chosen register. -/
  | registerUsing (op : Operation.OfShape .register) (mode : RegisterMode)
  /-- With the width that a value has; the value itself leaves no trace. -/
  | widthOf (op : Operation.OfShape .size) (value : Immediate)
  /-- With a given width. -/
  | width (op : Operation.OfShape .size) (w : Width)
  /-- To the target in the left register. -/
  | jump (op : Operation.OfShape .word)
  /-- To a given target. -/
  | jumpTo (op : Operation.OfShape .word) (target : Target)
  | nullary (op : Operation.OfShape .nullary)

namespace Entry

/-- The instruction that an entry point writes. -/
def instruction : Entry → Instruction
  | implicit op => .argument op.val .implicit
  | immediate op value => .argument op.val (.immediate value)
  | source op descriptor => .argument op.val (.operand descriptor)
  | register op => .register op.val default
  | registerUsing op mode => .register op.val mode
  | widthOf op value => .size op.val value.width
  | width op w => .size op.val w
  | jump op => .word op.val none
  | jumpTo op target => .word op.val (some target.immediate)
  | nullary op => .nullary op.val

/-- A source has to name an operand. -/
def require : Entry → Except Fault Unit
  | source _ descriptor => descriptor.requireExplicit
  | _ => .ok ()

end Entry

namespace Block

/-- Writes an operation through one of its entry points. -/
def call (b : Block) (entry : Entry) : Except Fault Block := do
  entry.require
  return b.append entry.instruction

end Block

end ImageLinker
