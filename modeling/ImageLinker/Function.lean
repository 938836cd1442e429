import ImageLinker.Block

/-!
# Functions

The blocks of a function follow each other in the image without a gap. A function belongs to the
builder that created it, and so do the handles of its blocks; linking puts an end to all writing.
-/

namespace ImageLinker

/-- Tells one builder from another. -/
structure BuilderId where
  number : Nat
deriving DecidableEq, Repr

/-- A handle to a block of a function. It serves as the target of jumps, also of those that are
written before the block has an address. -/
structure BlockRef where
  builder : BuilderId
  function : SymbolId
  index : Nat
  symbol : SymbolId
deriving DecidableEq, Repr

/-- A function under construction. -/
structure Function where
  name : String
  symbol : SymbolId
  builder : BuilderId
  blocks : Array Block := #[]
  linked : Bool := false
deriving DecidableEq, Repr

namespace Function

/-- The number of bytes of all blocks. -/
def size (f : Function) : Nat :=
  f.blocks.toList.foldr (fun block size => block.size + size) 0

/-- Whether a handle was made for this function, or for a copy of it. -/
def owns (f : Function) (r : BlockRef) : Bool :=
  r.builder == f.builder && r.function == f.symbol

/-- The block behind a handle. -/
def block? (f : Function) (r : BlockRef) : Option Block :=
  if f.owns r then f.blocks[r.index]? else none

/-- The block behind a handle, for writing. -/
def writableBlock (f : Function) (r : BlockRef) : Except BuildError Block :=
  if f.linked then
    .error (.alreadyLinked f.name)
  else
    match f.block? r with
    | some block => .ok block
    | none => .error (.unknownBlock r.symbol f.name)

/-- Puts a block in the place of the one behind a handle. -/
def setBlock (f : Function) (r : BlockRef) (block : Block) : Function :=
  { f with blocks := f.blocks.setIfInBounds r.index block }

/-- The label of the block that is added next. -/
def nextLabel (f : Function) : String :=
  s!"{f.name}.{f.blocks.size}"

/-- The handle of the block that is added next. -/
def nextRef (f : Function) (symbol : SymbolId) : BlockRef :=
  { builder := f.builder, function := f.symbol, index := f.blocks.size, symbol }

/-- Adds an empty block. Its handle is `nextRef`. -/
def pushBlock (f : Function) (symbol : SymbolId) : Function :=
  { f with blocks := f.blocks.push { symbol } }

/-- The fixups of all blocks, in order of blocks and then of recording. -/
def fixups (f : Function) : List Fixup :=
  f.blocks.toList.flatMap fun block => block.fixups.toList

end Function

/-- A named container of bytes outside of any function. -/
structure Global where
  name : String
  code : Code := #[]
deriving DecidableEq, Repr

end ImageLinker
