import ImageLinker.Fault

/-!
# The arena of symbols

Symbols are handed out by id and are never removed, so an id stays valid as the arena grows. An
address is assigned once: `resolve` faults on a symbol that has one.
-/

namespace ImageLinker

/-- All symbols of one builder, in order of their ids. -/
structure Symbols where
  entries : Array Symbol := #[]
deriving DecidableEq, Repr

namespace Symbols

def size (s : Symbols) : Nat :=
  s.entries.size

def isEmpty (s : Symbols) : Bool :=
  s.entries.isEmpty

def get? (s : Symbols) (id : SymbolId) : Option Symbol :=
  s.entries[id.index]?

/-- The symbol with the given id, which has to be in the arena. -/
def get (s : Symbols) (id : SymbolId) : Except Fault Symbol :=
  match s.get? id with
  | some symbol => .ok symbol
  | none => .error (.noSymbol id)

/-- The id that the next symbol gets. -/
def nextId (s : Symbols) : SymbolId :=
  ⟨s.size⟩

/-- Adds a symbol without address. Its id is `nextId`. -/
def push (s : Symbols) (name : String) : Symbols :=
  ⟨s.entries.push { name }⟩

/-- Puts another symbol in the place of one in the arena. -/
def set (s : Symbols) (id : SymbolId) (symbol : Symbol) : Except Fault Symbols :=
  if id.index < s.size then .ok ⟨s.entries.setIfInBounds id.index symbol⟩ else .error (.noSymbol id)

/-- Gives a symbol its address and size, once and for all. -/
def resolve (s : Symbols) (id : SymbolId) (address size : Nat) : Except Fault Symbols := do
  let symbol ← s.get id
  if symbol.isResolved then
    throw (.placedTwice symbol.name)
  s.set id { symbol with address := some address, size }

/-- The address of a symbol that is in the arena and has one. -/
def addressOf? (s : Symbols) (id : SymbolId) : Option Nat :=
  (s.get? id).bind Symbol.address

/-- The symbols with their ids, in order. -/
def toList (s : Symbols) : List (SymbolId × Symbol) :=
  s.entries.toList.zipIdx.map fun (symbol, index) => (⟨index⟩, symbol)

@[simp] theorem size_push (s : Symbols) (name : String) : (s.push name).size = s.size + 1 := by
  simp [push, size]

/-- The new symbol is found under its id, and all others stay where they were. -/
theorem get?_push (s : Symbols) (name : String) (id : SymbolId) :
    (s.push name).get? id = if id = s.nextId then some { name } else s.get? id := by
  have hid : id = s.nextId ↔ id.index = s.entries.size := by
    cases id; simp [nextId, size]
  simp only [push, get?, Array.getElem?_push, hid]

theorem get?_eq_none_iff {s : Symbols} {id : SymbolId} : s.get? id = none ↔ s.size ≤ id.index := by
  simp [get?, size]

theorem isSome_get?_iff {s : Symbols} {id : SymbolId} :
    (s.get? id).isSome ↔ id.index < s.size := by
  rw [Option.isSome_iff_ne_none, Ne, get?_eq_none_iff, Nat.not_le]

end Symbols

end ImageLinker
