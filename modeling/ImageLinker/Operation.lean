import ImageLinker.Coded

/-!
# Operations

The operations of the instruction set. An opcode byte holds the code of the operation in its six
low bits (`code_lt`) and a mode in the two high bits; what the modes of an operation mean is its
`Shape`. The mnemonic is the name of the operation in assembly text.
-/

namespace ImageLinker

/-- What the two high bits of an opcode byte mean. -/
inductive Shape where
  /-- They tell where the argument comes from. -/
  | argument
  /-- They choose a register. -/
  | register
  /-- They are the tag of a width. -/
  | size
  /-- They tell where the target of a control transfer comes from. -/
  | word
  /-- They are zero. -/
  | nullary
deriving DecidableEq, Repr

namespace Shape

def text : Shape → String
  | argument => "Argument"
  | register => "Register"
  | size => "Size"
  | word => "Word"
  | nullary => "None"

end Shape

/-- The operations, grouped by shape. -/
inductive Operation where
  -- operations on the left register and an argument
  | or | and | add | sub | mul | div | mulS | divS | addF | subF | mulF | divF | shr | shl | cmp
  | cmpF | fToI | iToF | load8 | load16 | load32 | load64 | stor8 | stor16 | stor32 | stor64
  | push | pop
  -- operations on one chosen register
  | neg | sx8To16 | sx8To32 | sx8To64 | sx16To32 | sx16To64 | sx32To64 | f32To64 | f64To32
  | push8 | push16 | push32 | push64 | pop8 | pop16 | pop32 | pop64
  -- operations that carry a width
  | loadIL | loadIR
  -- control transfers
  | jmp | jeq | jne | jl | jle | jg | jge | call | cCall
  -- operations without operands
  | stop | xchg | dump
deriving DecidableEq, Repr

namespace Operation

/-- The six-bit code in the low bits of an opcode byte. -/
def code : Operation → UInt8
  | or => 0x02
  | and => 0x03
  | add => 0x04
  | sub => 0x05
  | mul => 0x06
  | div => 0x07
  | mulS => 0x08
  | divS => 0x09
  | addF => 0x0A
  | subF => 0x0B
  | mulF => 0x0C
  | divF => 0x0D
  | shr => 0x0E
  | shl => 0x0F
  | cmp => 0x10
  | cmpF => 0x11
  | fToI => 0x12
  | iToF => 0x13
  | load8 => 0x20
  | load16 => 0x21
  | load32 => 0x22
  | load64 => 0x23
  | stor8 => 0x26
  | stor16 => 0x27
  | stor32 => 0x28
  | stor64 => 0x29
  | push => 0x33
  | pop => 0x38
  | neg => 0x01
  | sx8To16 => 0x14
  | sx8To32 => 0x15
  | sx8To64 => 0x16
  | sx16To32 => 0x17
  | sx16To64 => 0x18
  | sx32To64 => 0x19
  | f32To64 => 0x1A
  | f64To32 => 0x1B
  | push8 => 0x34
  | push16 => 0x35
  | push32 => 0x36
  | push64 => 0x37
  | pop8 => 0x39
  | pop16 => 0x3A
  | pop32 => 0x3B
  | pop64 => 0x3C
  | loadIL => 0x24
  | loadIR => 0x25
  | jmp => 0x2B
  | jeq => 0x2C
  | jne => 0x2D
  | jl => 0x2E
  | jle => 0x2F
  | jg => 0x30
  | jge => 0x31
  | call => 0x32
  | cCall => 0x3E
  | stop => 0x00
  | xchg => 0x2A
  | dump => 0x3D

/-- The name of an operation in assembly text. -/
def mnemonic : Operation → String
  | or => "or"
  | and => "and"
  | add => "add"
  | sub => "sub"
  | mul => "mul"
  | div => "div"
  | mulS => "muls"
  | divS => "divs"
  | addF => "addf"
  | subF => "subf"
  | mulF => "mulf"
  | divF => "divf"
  | shr => "shr"
  | shl => "shl"
  | cmp => "cmp"
  | cmpF => "cmpf"
  | fToI => "ftoi"
  | iToF => "itof"
  | load8 => "load8"
  | load16 => "load16"
  | load32 => "load32"
  | load64 => "load64"
  | stor8 => "stor8"
  | stor16 => "stor16"
  | stor32 => "stor32"
  | stor64 => "stor64"
  | push => "push"
  | pop => "pop"
  | neg => "neg"
  | sx8To16 => "sx8to16"
  | sx8To32 => "sx8to32"
  | sx8To64 => "sx8to64"
  | sx16To32 => "sx16to32"
  | sx16To64 => "sx16to64"
  | sx32To64 => "sx32to64"
  | f32To64 => "f32to64"
  | f64To32 => "f64to32"
  | push8 => "push8"
  | push16 => "push16"
  | push32 => "push32"
  | push64 => "push64"
  | pop8 => "pop8"
  | pop16 => "pop16"
  | pop32 => "pop32"
  | pop64 => "pop64"
  | loadIL => "loadil"
  | loadIR => "loadir"
  | jmp => "jmp"
  | jeq => "jeq"
  | jne => "jne"
  | jl => "jl"
  | jle => "jle"
  | jg => "jg"
  | jge => "jge"
  | call => "call"
  | cCall => "ccall"
  | stop => "stop"
  | xchg => "xchg"
  | dump => "dump"

/-- The operations, in order of declaration. -/
def all : List Operation :=
  [or, and, add, sub, mul, div, mulS, divS, addF, subF, mulF, divF, shr, shl, cmp, cmpF, fToI,
   iToF, load8, load16, load32, load64, stor8, stor16, stor32, stor64, push, pop, neg, sx8To16,
   sx8To32, sx8To64, sx16To32, sx16To64, sx32To64, f32To64, f64To32, push8, push16, push32,
   push64, pop8, pop16, pop32, pop64, loadIL, loadIR, jmp, jeq, jne, jl, jle, jg, jge, call,
   cCall, stop, xchg, dump]

/-- The shape that determines every legal encoding of an operation. -/
def shape : Operation → Shape
  | neg | sx8To16 | sx8To32 | sx8To64 | sx16To32 | sx16To64 | sx32To64 | f32To64
  | f64To32 | push8 | push16 | push32 | push64 | pop8 | pop16 | pop32 | pop64 => .register
  | loadIL | loadIR => .size
  | jmp | jeq | jne | jl | jle | jg | jge | call | cCall => .word
  | stop | xchg | dump => .nullary
  | _ => .argument

instance : Coded Operation where
  table := "Operation"
  all := all
  code := code
  find?_code op := by cases op <;> rfl

/-- The operation with the given mnemonic. -/
def ofMnemonic? (s : String) : Option Operation :=
  all.find? fun op => op.mnemonic == s

theorem ofMnemonic?_mnemonic (op : Operation) : ofMnemonic? op.mnemonic = some op := by
  cases op <;> decide

/-- Operation codes leave the two high bits of the opcode byte free. -/
theorem code_lt (op : Operation) : op.code < 64 := by
  cases op <;> decide

/-- The operations of one shape. -/
abbrev OfShape (s : Shape) : Type :=
  { op : Operation // op.shape = s }

/-- The operation as one of the given shape, if that is its shape. -/
def ofShape? (op : Operation) (s : Shape) : Option (OfShape s) :=
  if h : op.shape = s then some ⟨op, h⟩ else none

theorem ofShape?_of_shape {op : Operation} {s : Shape} (h : op.shape = s) :
    op.ofShape? s = some ⟨op, h⟩ :=
  dif_pos h

end Operation

/-- The distance by which a mode is shifted into the opcode byte. -/
def modeShift : UInt8 := 6

/-- The part of the opcode byte that holds the operation code. -/
def codeMask : UInt8 := 0x3F

/-- The opcode byte of an operation in a given mode. -/
def opcodeByte (op : Operation) (mode : UInt8) : UInt8 :=
  op.code ||| mode <<< modeShift

end ImageLinker
