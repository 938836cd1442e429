import ImageLinker.BuildError
import ImageLinker.Fixup
import ImageLinker.Instruction.Basic

/-!
# Encoding

The bytes of an instruction are a head, the opcode byte and perhaps a descriptor, and then the
bytes of the immediate it carries, if any. They depend on nothing but the instruction.

One-byte and eight-byte arguments have modes of their own; two-byte and four-byte arguments need a
descriptor. A target of zero is a mode as well, and no bytes follow it.

* `Instruction.encodedSize` gives the length without writing anything; `length_bytes` says that it
  is the length of `bytes`.
* `Instruction.check?` names what makes an instruction impossible to read back.
* `Instruction.write` appends to code without looking, `Instruction.encode` only what passes the
  check. A symbol among the operands leaves a fixup for its last eight bytes.
-/

namespace ImageLinker.Instruction

/-- The opcode byte, and the descriptor where there is one. -/
def head : Instruction → List UInt8
  | nullary op => [op.code]
  | argument op .implicit => [opcodeByte op (Coded.code ArgumentMode.implicit)]
  | argument op (.operand source) =>
    [opcodeByte op (Coded.code ArgumentMode.explicitOperand), Coded.code source]
  | argument op (.immediate v) =>
    match v.width with
    | .bits8 => [opcodeByte op (Coded.code ArgumentMode.byteImmediate)]
    | .bits64 => [opcodeByte op (Coded.code ArgumentMode.wordImmediate)]
    | w => [opcodeByte op (Coded.code ArgumentMode.explicitOperand), Coded.code (Source.ofWidth w)]
  | register op mode => [opcodeByte op (Coded.code mode)]
  | size op width => [opcodeByte op width.tag]
  | word op none => [opcodeByte op (Coded.code WordMode.usesLeft)]
  | word op (some target) =>
    if target.isZero then [opcodeByte op (Coded.code WordMode.zeroImmediate)]
    else [opcodeByte op (Coded.code WordMode.hasImmediate)]

/-- The immediate whose bytes follow the head. -/
def payload? : Instruction → Option Immediate
  | argument _ (.immediate v) => some v
  | word _ (some target) => if target.isZero then none else some target
  | _ => none

/-- The instruction as bytes, with zeros for the addresses of symbols. -/
def bytes (i : Instruction) : List UInt8 :=
  match i.payload? with
  | some v => i.head ++ v.bytes
  | none => i.head

/-- The number of bytes that an instruction takes. -/
def encodedSize : Instruction → Nat
  | nullary _ => 1
  | register .. => 1
  | size .. => 1
  | argument _ .implicit => 1
  | argument _ (.operand _) => 2
  | argument _ (.immediate v) =>
    match v.width with
    | .bits8 => 1 + v.width.bytes
    | .bits64 => 1 + v.width.bytes
    | w => 2 + w.bytes
  | word _ none => 1
  | word _ (some target) => if target.isZero then 1 else 1 + target.width.bytes

/-- The announced size is the number of bytes. -/
@[simp] theorem length_bytes (i : Instruction) : i.bytes.length = i.encodedSize := by
  cases i with
  | nullary op => rfl
  | register op mode => rfl
  | size op width => rfl
  | argument op a =>
    cases a with
    | implicit => rfl
    | operand source => rfl
    | immediate v =>
      cases h : v.width <;> simp [bytes, payload?, head, encodedSize, h] <;> omega
  | word op target =>
    cases target with
    | none => rfl
    | some v =>
      cases h : v.isZero with
      | true => simp [bytes, payload?, head, encodedSize, h]
      | false =>
        simp [bytes, payload?, head, encodedSize, h]
        omega

/-- The fixup that the instruction leaves when it is appended to `start` bytes of code. -/
def fixup? (i : Instruction) (start : Nat) : Option Fixup :=
  (i.payload?.bind Immediate.symbol?).map fun id => ⟨id, start + i.head.length⟩

/-- What makes the instruction impossible to read back: a form that does not fit the operation, a
descriptor without its immediate, or a target that is neither zero nor as wide as an address. -/
def check? (i : Instruction) : Option BuildError :=
  let op := i.operation
  if op.shape ≠ i.shape then
    some (.shapeMismatch op op.shape i.shape)
  else
    match i with
    | argument _ (.operand source) =>
      if source.isImmediate then some (.immediateOperand op source) else none
    | word _ (some target) =>
      if ¬ target.isZero ∧ target.width ≠ .bits64 then
        some (.narrowWordTarget op target.width)
      else none
    | _ => none

/-- Appends the instruction to code, whether or not it can be read back. -/
def write (i : Instruction) (code : Code) : Code × Option Fixup :=
  let fixup := i.fixup? code.size
  (code ++ i.bytes, fixup)

/-- Appends the instruction to code if it can be read back. -/
def encode (i : Instruction) (code : Code) : Except BuildError (Code × Option Fixup) :=
  match i.check? with
  | some e => .error e
  | none => .ok (i.write code)

end ImageLinker.Instruction
