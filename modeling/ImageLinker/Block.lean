import ImageLinker.Instruction.Encoding

/-!
# Blocks

A block is a stretch of code with a symbol, so that it can be jumped to. It grows instruction by
instruction, and where an instruction names a symbol it notes a fixup.

`code_append` and `fixups_append` say what one more instruction adds.
-/

namespace ImageLinker

/-- Code under construction that can be jumped to. -/
structure Block where
  symbol : SymbolId
  code : Code := #[]
  /-- What waits for an address, in order of recording. -/
  fixups : Array Fixup := #[]
deriving DecidableEq, Repr

namespace Block

/-- The number of bytes written so far. -/
def size (b : Block) : Nat :=
  b.code.size

/-- Writes an instruction whether or not it can be read back. -/
def append : Block → Instruction → Block
  | ⟨symbol, code, fixups⟩, i =>
    let (code, fixup) := i.write code
    ⟨symbol, code, fixups ++ fixup.toList⟩

/-- Writes an instruction that can be read back, and refuses any other. -/
def emit (b : Block) (i : Instruction) : Except BuildError Block :=
  match i.check? with
  | some e => .error e
  | none => .ok (b.append i)

@[simp] theorem symbol_append (b : Block) (i : Instruction) : (b.append i).symbol = b.symbol := rfl

@[simp] theorem code_append (b : Block) (i : Instruction) :
    (b.append i).code = b.code ++ i.bytes := rfl

@[simp] theorem fixups_append (b : Block) (i : Instruction) :
    (b.append i).fixups = b.fixups ++ (i.fixup? b.code.size).toList := rfl

end Block

end ImageLinker
