import ImageLinker.Text.Hex

/-!
# Symbols

A symbol is a named place in the image. It is created without an address and gets one when the
function that it belongs to is linked.
-/

namespace ImageLinker

/-- A position in the arena of symbols. -/
structure SymbolId where
  index : Nat
deriving DecidableEq, Repr

namespace SymbolId

def text (id : SymbolId) : String :=
  s!"#{id.index}"

end SymbolId

/-- A named place in the image. -/
structure Symbol where
  name : String
  /-- Where the place is, once it is known. -/
  address : Option Nat := none
  /-- How many bytes the place takes. -/
  size : Nat := 0
deriving DecidableEq, Repr

namespace Symbol

def isResolved (s : Symbol) : Bool :=
  s.address.isSome

def text (s : Symbol) : String :=
  match s.address with
  | some address => s!"{s.name}@{Hex.address address}[{s.size}]"
  | none => s!"{s.name}@?"

end Symbol

end ImageLinker
