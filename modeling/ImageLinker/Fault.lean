import ImageLinker.Operand
import ImageLinker.Symbol

/-!
# Faults

A fault is a broken promise of the caller: an index outside of what it indexes, a sum of addresses
beyond the last address, more bytes than can be held, a symbol placed twice, a name that cannot be
laid out in a table, a descriptor without the value that it announces. Building and linking report
errors; they do not fault on what the library itself hands out, unless a whole block was put in the
place of another one.
-/

namespace ImageLinker

/-- A broken promise of the caller. -/
inductive Fault where
  /-- No symbol has this id. -/
  | noSymbol (id : SymbolId)
  /-- An address does not fit into the code at this offset. -/
  | outsideCode (offset : Nat)
  /-- A sum lies beyond the last address. -/
  | addressOverflow
  /-- So many bytes cannot be held. -/
  | capacityExceeded (size : Nat)
  /-- The symbol of this name already has an address. -/
  | placedTwice (name : String)
  /-- The style sequences of this line hold more characters than the line has columns. -/
  | overhidden (line : String)
  /-- The descriptor announces an immediate, and none was given. -/
  | missingValue (descriptor : Source)
deriving DecidableEq, Repr

namespace Fault

/-- What is reported about a fault beyond the fact that it happened. -/
def message? : Fault → Option String
  | missingValue descriptor =>
    some <| "Error: An immediate descriptor was given when an explicit operand was required: " ++
      descriptor.text
  | _ => none

end Fault

namespace Source

/-- Refuses a descriptor that announces an immediate: where an operand has to be named, it names
none. -/
def requireExplicit (descriptor : Source) : Except Fault Unit :=
  if descriptor.isImmediate then .error (.missingValue descriptor) else .ok ()

end Source

end ImageLinker
