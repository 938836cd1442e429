import ImageLinker.Builder.Link
import ImageLinker.Instruction.Decoding

/-!
# Images

An image is linked code in which no reference waits any more, together with the symbols and names
that describe it.
-/

namespace ImageLinker

/-- A complete program. -/
structure Image where
  code : Code
  symbols : Symbols
  names : Names
  globals : Array Global
deriving DecidableEq, Repr

/-- Completes an image, unless a reference in it still waits. -/
def Builder.finish (b : Builder) : Except BuildError Image :=
  let unresolved := b.unresolved
  if unresolved.isEmpty then
    .ok { code := b.code, symbols := b.symbols, names := b.names, globals := b.globals }
  else
    .error (.unresolvedReferences unresolved)

namespace Image

/-- The symbol of a function, or failing that of a block. -/
def symbol? (image : Image) (name : String) : Option Symbol :=
  (image.names.lookup? name).bind image.symbols.get?

/-- The address of a function or block that was linked. -/
def addressOf? (image : Image) (name : String) : Option Nat :=
  (image.symbol? name).bind Symbol.address

/-- The names of the functions and blocks that start at an address, in order of their creation. -/
def labelsAt (image : Image) (address : Nat) : List String :=
  image.symbols.toList.filterMap fun (_, symbol) =>
    if symbol.address = some address then some symbol.name else none

/-- The instructions of the image with their addresses. -/
def instructions (image : Image) : Except BuildError (Array (Nat × Instruction)) :=
  disassemble image.code

/-- The global of the given name. -/
def global? (image : Image) (name : String) : Option Global :=
  image.globals.find? fun g => g.name == name

end Image

end ImageLinker
