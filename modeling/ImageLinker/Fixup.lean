import ImageLinker.Bytes
import ImageLinker.Symbols

/-!
# Fixups

A fixup is a write that waits for an address: eight zero bytes stand in the code where the address
of a symbol belongs. While the code is a block of its own, the offset counts from the start of the
block; once the block is in the image, it is an image address (`Fixup.relocated`).

`patch` is the one place where addresses are written: it serves the fixups of a block before the
block joins the image and the fixups of the image that had to wait.
-/

namespace ImageLinker

/-- The sum of two addresses, which has to be an address. -/
def addAddress (a b : Nat) : Except Fault Nat :=
  if a + b < addressLimit then .ok (a + b) else .error .addressOverflow

/-- The address of `symbol` belongs into the eight bytes at `offset`. -/
structure Fixup where
  symbol : SymbolId
  offset : Nat
deriving DecidableEq, Repr

namespace Fixup

def text (f : Fixup) : String :=
  s!"{f.symbol.text} at +{Hex.padded 1 f.offset}"

/-- Writes `address` over the eight bytes that wait for it. -/
def apply (f : Fixup) (address : Nat) (code : Code) : Except Fault Code :=
  if f.offset + addressSize ≤ code.size then
    .ok (code.overwrite f.offset (leBytes addressSize address))
  else
    .error (.outsideCode f.offset)

/-- The same fixup in code that starts at `base`. -/
def relocated (f : Fixup) (base : Nat) : Except Fault Fixup := do
  return { f with offset := ← addAddress f.offset base }

end Fixup

/-- Serves one fixup: writes the address of its target if it has one, otherwise puts the fixup
aside. -/
def patchStep (symbols : Symbols) (state : Code × Array Fixup) (f : Fixup) :
    Except Fault (Code × Array Fixup) := do
  let (code, waiting) := state
  match (← symbols.get f.symbol).address with
  | some address => return (← f.apply address code, waiting)
  | none => return (code, waiting.push f)

/-- Writes the address of every target that has one. The fixups of the others are returned, in
order. -/
def patch (symbols : Symbols) (code : Code) (fixups : List Fixup) :
    Except Fault (Code × List Fixup) := do
  let (code, waiting) ← fixups.foldlM (patchStep symbols) (code, #[])
  return (code, waiting.toList)

end ImageLinker
