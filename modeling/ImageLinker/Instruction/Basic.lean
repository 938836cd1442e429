import ImageLinker.Immediate
import ImageLinker.Mode
import ImageLinker.Operand
import ImageLinker.Operation

/-!
# Instructions

An instruction pairs an operation with its operands, in one of five forms. The form need not fit
the operation; the encoder refuses instructions where it does not.
-/

namespace ImageLinker

/-- The argument of an operation between the left register and something else. -/
inductive Argument where
  /-- The right register. -/
  | implicit
  | immediate (value : Immediate)
  | operand (source : Source)
deriving DecidableEq, Repr

/-- An operation with its operands. -/
inductive Instruction where
  | nullary (operation : Operation)
  | argument (operation : Operation) (argument : Argument)
  | register (operation : Operation) (register : RegisterMode)
  | size (operation : Operation) (width : Width)
  /-- A control transfer; without a target it goes where the left register says. -/
  | word (operation : Operation) (target : Option Immediate)
deriving DecidableEq, Repr

namespace Instruction

def operation : Instruction → Operation
  | nullary op => op
  | argument op _ => op
  | register op _ => op
  | size op _ => op
  | word op _ => op

/-- The shape of the form, which need not be that of the operation. -/
def shape : Instruction → Shape
  | nullary _ => .nullary
  | argument .. => .argument
  | register .. => .register
  | size .. => .size
  | word .. => .word

/-- The instruction in assembly text. -/
def text : Instruction → String
  | nullary op => op.mnemonic
  | argument op .implicit => op.mnemonic
  | argument op (.immediate v) => s!"{op.mnemonic} {v.width.text} {v.text}"
  | argument op (.operand source) => s!"{op.mnemonic} {source.text}"
  | register op mode => s!"{op.mnemonic} {mode.text}"
  | size op width => s!"{op.mnemonic} {width.text}"
  | word op (some target) => s!"{op.mnemonic} {target.text}"
  | word op none => s!"{op.mnemonic} {RegisterMode.usesLeft.text}"

end Instruction

end ImageLinker
