import ImageLinker.Instruction.Basic

/-!
# Canonical instructions

What is left of an instruction in its bytes: immediates are integers that fit their width, a symbol
is the address it stands for, and a target of zero is a full word. `address` gives the addresses of
symbols; before linking they are all zero.
-/

namespace ImageLinker

/-- The integer that the bytes of an immediate stand for. -/
def Immediate.canon (address : SymbolId → Nat) : Immediate → Immediate
  | integer width bits => integer width (UInt64.ofNat (bits.toNat % Nat.pow 256 width.bytes))
  | float width bits => integer width (UInt64.ofNat (bits.toNat % Nat.pow 256 width.bytes))
  | symbol id => integer .bits64 (UInt64.ofNat (address id))

@[simp] theorem Immediate.width_canon (address : SymbolId → Nat) (v : Immediate) :
    (v.canon address).width = v.width := by
  cases v <;> rfl

/-- The instruction that the bytes of an instruction stand for. -/
def Instruction.canon (address : SymbolId → Nat) : Instruction → Instruction
  | argument op (.immediate v) => argument op (.immediate (v.canon address))
  | word op (some target) =>
    word op (some (if target.isZero then .integer .bits64 0 else target.canon address))
  | i => i

end ImageLinker
