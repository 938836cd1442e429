import ImageLinker.Image
import ImageLinker.Text.Table

/-!
# Machines

A machine has six registers and three stores of bytes: code, stack and heap. Here they are held and
shown; instructions are not carried out.
-/

namespace ImageLinker

/-- The names of the registers. -/
inductive Register where
  | l
  | r
  | ip
  | bp
  | sp
  | flags
deriving DecidableEq, Repr

/-- The registers and stores of a machine. -/
structure Machine where
  /-- The left data register. -/
  l : UInt64 := 0
  /-- The right data register. -/
  r : UInt64 := 0
  /-- The instruction pointer into `code`. -/
  ip : UInt64 := 0
  /-- The base pointer into `stack`. -/
  bp : UInt64 := 0
  /-- The stack pointer into `stack`. -/
  sp : UInt64 := 0
  flags : UInt64 := 0
  code : Code
  stack : Code := #[]
  heap : Code := #[]
deriving DecidableEq, Repr

/-- Bytes to be appended to a store. -/
inductive Addition where
  | bytes (code : Code)
  | zeros (count : Nat)
deriving DecidableEq, Repr

namespace Addition

def size : Addition → Nat
  | bytes code => code.size
  | zeros count => count

def toCode : Addition → Code
  | bytes code => code
  | zeros count => Array.replicate count 0

/-- Appends bytes to a store, unless it would hold too many. -/
def appendTo (a : Addition) (store : Code) : Except Fault Code :=
  if store.size + a.size ≤ maxCapacity then .ok (store ++ a.toCode)
  else .error (.capacityExceeded (store.size + a.size))

end Addition

namespace Machine

/-- A machine with an image loaded and everything else zero. -/
def ofImage (image : Image) : Machine where
  code := image.code

def setRegister (m : Machine) (value : UInt64) : Register → Machine
  | .l => { m with l := value }
  | .r => { m with r := value }
  | .ip => { m with ip := value }
  | .bp => { m with bp := value }
  | .sp => { m with sp := value }
  | .flags => { m with flags := value }

/-- The name of a register or store, as the first column of a table. -/
def entryName (name : String) : String :=
  name ++ " ="

def registerTable (m : Machine) : Table where
  columns := [⟨"Register", .right⟩, ⟨"Contents", .left⟩]
  rows :=
    [("L", m.l), ("R", m.r), ("IP", m.ip), ("BP", m.bp), ("SP", m.sp), ("FLG", m.flags)].map
      fun (name, value) => [entryName name, Hex.padded 16 value.toNat]

def memoryTable (m : Machine) : Table where
  columns := [⟨"Store", .right⟩, ⟨"Bytes", .left⟩]
  rows :=
    [("code", m.code), ("stack", m.stack), ("heap", m.heap)].map
      fun (name, store) => [entryName name, toString store.size]

/-- The registers beside the stores, as tables in one row of a table. -/
def text (m : Machine) : String :=
  let table : Table := {
    columns := [⟨"Registers", .left⟩, ⟨"Memory", .left⟩]
    rows := [[m.registerTable.render, m.memoryTable.render]] }
  table.render

end Machine

end ImageLinker
