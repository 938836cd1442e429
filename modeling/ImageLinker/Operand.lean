import ImageLinker.Width

/-!
# Operand descriptors

A descriptor names an operand in four bits, stored in the low half of a byte. There is one table
per role that an operand can play. A narrower table keeps the codes of the wider one it is part of
(`RegisterOperand.code_toOperand`, `Dest.code_toSource`).
-/

namespace ImageLinker

/-- The general operand table of the machine. -/
inductive Operand where
  | r8 | r16 | r32 | r64
  | i8 | i16 | i32 | i64
  | zero | sp | bp | ip | flg
deriving DecidableEq, Repr

namespace Operand

def text : Operand → String
  | r8 => "r8"
  | r16 => "r16"
  | r32 => "r32"
  | r64 => "r64"
  | i8 => "i8"
  | i16 => "i16"
  | i32 => "i32"
  | i64 => "i64"
  | zero => "0"
  | sp => "sp"
  | bp => "bp"
  | ip => "ip"
  | flg => "flg"

instance : Coded Operand where
  table := "Operand"
  all := [r8, r16, r32, r64, i8, i16, i32, i64, zero, sp, bp, ip, flg]
  code
    | r8 => 0
    | r16 => 1
    | r32 => 2
    | r64 => 3
    | i8 => 4
    | i16 => 5
    | i32 => 6
    | i64 => 7
    | zero => 8
    | sp => 9
    | bp => 10
    | ip => 11
    | flg => 12
  find?_code a := by cases a <;> rfl

end Operand

/-- Storage that the machine can write through. -/
inductive RegisterOperand where
  | r8 | r16 | r32 | r64
  | sp | bp | ip | flg
deriving DecidableEq, Repr

namespace RegisterOperand

def toOperand : RegisterOperand → Operand
  | r8 => .r8
  | r16 => .r16
  | r32 => .r32
  | r64 => .r64
  | sp => .sp
  | bp => .bp
  | ip => .ip
  | flg => .flg

def text (a : RegisterOperand) : String :=
  a.toOperand.text

instance : Coded RegisterOperand where
  table := "OperandReg"
  all := [r8, r16, r32, r64, sp, bp, ip, flg]
  code
    | r8 => 0
    | r16 => 1
    | r32 => 2
    | r64 => 3
    | sp => 9
    | bp => 10
    | ip => 11
    | flg => 12
  find?_code a := by cases a <;> rfl

theorem code_toOperand (a : RegisterOperand) : Coded.code a.toOperand = Coded.code a := by
  cases a <;> rfl

end RegisterOperand

/-- Where an operation takes an explicit argument from: a register, a local, an immediate that
follows, zero, or one of the pointers. -/
inductive Source where
  | r8 | r16 | r32 | r64
  | l8 | l16 | l32 | l64
  | i8 | i16 | i32 | i64
  | zero | sp | bp | ip
deriving DecidableEq, Repr

namespace Source

def text : Source → String
  | r8 => "r8"
  | r16 => "r16"
  | r32 => "r32"
  | r64 => "r64"
  | l8 => "l8"
  | l16 => "l16"
  | l32 => "l32"
  | l64 => "l64"
  | i8 => "i8"
  | i16 => "i16"
  | i32 => "i32"
  | i64 => "i64"
  | zero => "0"
  | sp => "sp"
  | bp => "bp"
  | ip => "ip"

instance : Coded Source where
  table := "OperandSource"
  all := [r8, r16, r32, r64, l8, l16, l32, l64, i8, i16, i32, i64, zero, sp, bp, ip]
  code
    | r8 => 0
    | r16 => 1
    | r32 => 2
    | r64 => 3
    | l8 => 4
    | l16 => 5
    | l32 => 6
    | l64 => 7
    | i8 => 8
    | i16 => 9
    | i32 => 10
    | i64 => 11
    | zero => 12
    | sp => 13
    | bp => 14
    | ip => 15
  find?_code a := by cases a <;> rfl

/-- The source that is written as the given text. -/
def ofText? (s : String) : Option Source :=
  (Coded.all : List Source).find? fun a => a.text == s

/-- The descriptor that announces an immediate of the given width. -/
def ofWidth : Width → Source
  | .bits8 => i8
  | .bits16 => i16
  | .bits32 => i32
  | .bits64 => i64

/-- The width of the immediate that a descriptor announces, if it announces one. -/
def width? : Source → Option Width
  | i8 => some .bits8
  | i16 => some .bits16
  | i32 => some .bits32
  | i64 => some .bits64
  | _ => none

/-- Whether the descriptor announces an immediate, so that it says nothing without a value. -/
def isImmediate (a : Source) : Bool :=
  a.width?.isSome

@[simp] theorem width?_ofWidth (w : Width) : (ofWidth w).width? = some w := by
  cases w <;> rfl

end Source

/-- Where an operation can put its result: registers and locals. -/
inductive Dest where
  | r8 | r16 | r32 | r64
  | l8 | l16 | l32 | l64
deriving DecidableEq, Repr

namespace Dest

/-- Every destination is also a source. -/
def toSource : Dest → Source
  | r8 => .r8
  | r16 => .r16
  | r32 => .r32
  | r64 => .r64
  | l8 => .l8
  | l16 => .l16
  | l32 => .l32
  | l64 => .l64

def text (a : Dest) : String :=
  a.toSource.text

instance : Coded Dest where
  table := "OperandDest"
  all := [r8, r16, r32, r64, l8, l16, l32, l64]
  code
    | r8 => 0
    | r16 => 1
    | r32 => 2
    | r64 => 3
    | l8 => 4
    | l16 => 5
    | l32 => 6
    | l64 => 7
  find?_code a := by cases a <;> rfl

/-- The destination that is written as the given text. -/
def ofText? (s : String) : Option Dest :=
  (Coded.all : List Dest).find? fun a => a.text == s

theorem code_toSource (a : Dest) : Coded.code a.toSource = Coded.code a := by
  cases a <;> rfl

/-- A destination never announces an immediate. -/
@[simp] theorem isImmediate_toSource (a : Dest) : a.toSource.isImmediate = false := by
  cases a <;> rfl

end Dest

/-- How a result is rounded. -/
inductive Rounding where
  | nearestEven
  | down
  | up
  | zero
deriving DecidableEq, Repr

namespace Rounding

def text : Rounding → String
  | nearestEven => "nearest_even"
  | down => "down"
  | up => "up"
  | zero => "zero"

instance : Coded Rounding where
  table := "OperandRound"
  all := [nearestEven, down, up, zero]
  code
    | nearestEven => 0
    | down => 1
    | up => 2
    | zero => 3
  find?_code a := by cases a <;> rfl

end Rounding

end ImageLinker
