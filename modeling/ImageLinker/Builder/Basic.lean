import ImageLinker.Function
import ImageLinker.NameTable

/-!
# Builders

A builder owns the image, the arena of symbols and the names. Functions are created by it and get
their blocks from it; they refer to each other and to their blocks by symbol, long before addresses
are known.

A step that can fail returns what it made, or why it did not, together with the builder afterwards.
-/

namespace ImageLinker

/-- The bytes that are reserved for an image up front. -/
def initialCapacity : Nat := 0x100

/-- An image under construction. -/
structure Builder where
  id : BuilderId
  /-- The functions linked so far. References that wait hold zeros. -/
  code : Code := #[]
  symbols : Symbols := {}
  names : Names := {}
  /-- The references that wait, with image addresses. -/
  pending : List Fixup := []
  globals : Array Global := #[]
deriving DecidableEq, Repr

namespace Builder

/-- An empty builder with bytes reserved for its image. -/
def reserving (capacity : Nat) (id : BuilderId) : Except Fault Builder :=
  if capacity ≤ maxCapacity then .ok { id } else .error (.capacityExceeded capacity)

/-- A function by its name, or failing that a block by its label. -/
def lookup? (b : Builder) (name : String) : Option SymbolId :=
  b.names.lookup? name

/-! ## Functions and blocks -/

/-- Creates an empty function. It can be referred to at once. -/
def newFunction (b : Builder) (name : String) : Except BuildError Function × Builder :=
  if b.names.functions.contains name then
    (.error (.duplicateSymbol name), b)
  else
    let symbol := b.symbols.nextId
    let b := { b with symbols := b.symbols.push name }
    match b.names.functions.insert name symbol with
    | .error e => (.error e, b)
    | .ok functions =>
      (.ok { name, symbol, builder := b.id }, { b with names := { b.names with functions } })

/-- Only functions of this builder that have no place in the image yet can grow or be linked. What
passes has its symbol in the arena of this builder, and so have the blocks that were made for it. -/
def checkUnlinked (b : Builder) (f : Function) : Except Failure Unit :=
  if f.builder ≠ b.id then
    .error (.error (.foreignFunction f.name))
  else if f.linked then
    .error (.error (.alreadyLinked f.name))
  else
    match b.symbols.get f.symbol with
    | .error fault => .error (.fault fault)
    | .ok symbol => if symbol.isResolved then .error (.error (.alreadyLinked f.name)) else .ok ()

/-- Adds an empty block to a function. The label of the block is the function's name, a point and
the number of the blocks before it. A label that is taken is noticed only after the block's symbol
was created. -/
def appendBlock (b : Builder) (f : Function) : Except Failure (BlockRef × Function) × Builder :=
  match b.checkUnlinked f with
  | .error e => (.error e, b)
  | .ok () =>
    let symbol := b.symbols.nextId
    let b := { b with symbols := b.symbols.push f.nextLabel }
    match b.names.labels.insert f.nextLabel symbol with
    | .error e => (.error (.error e), b)
    | .ok labels =>
      (.ok (f.nextRef symbol, f.pushBlock symbol), { b with names := { b.names with labels } })

/-! ## Globals -/

/-- The global of the given name. -/
def global? (b : Builder) (name : String) : Option Global :=
  b.globals.find? fun g => g.name == name

/-- Creates an empty global. -/
def addGlobal (b : Builder) (name : String) : Except BuildError (Global × Builder) :=
  if (b.global? name).isSome then
    .error (.duplicateSymbol name)
  else
    let g : Global := { name }
    .ok (g, { b with globals := b.globals.push g })

/-- Puts a global in the place of the one of the same name. -/
def setGlobal (b : Builder) (g : Global) : Builder :=
  { b with globals := b.globals.map fun h => if h.name == g.name then g else h }

end Builder

end ImageLinker
