import ImageLinker.Fault
import ImageLinker.Operation

/-!
# Errors of building

What can be wrong with an instruction, a function or an image that someone builds, with the text
of each report. A `Failure` is an error or a fault.
-/

namespace ImageLinker

/-- Eight bytes of the image that still wait for the address of `symbol`. -/
structure UnresolvedReference where
  symbol : String
  offset : Nat
deriving DecidableEq, Repr

namespace UnresolvedReference

def text (r : UnresolvedReference) : String :=
  s!"`{r.symbol}` at {Hex.address r.offset}"

end UnresolvedReference

/-- A reason to refuse a step of building. -/
inductive BuildError where
  | alreadyLinked (function : String)
  | unknownBlock (block : SymbolId) (function : String)
  | duplicateSymbol (name : String)
  | foreignFunction (function : String)
  | unknownSymbol (id : SymbolId)
  | shapeMismatch (operation : Operation) (expected found : Shape)
  | immediateOperand (operation : Operation) (descriptor : Source)
  | narrowWordTarget (operation : Operation) (width : Width)
  | malformedInstruction (offset : Nat)
  | unresolvedReferences (references : List UnresolvedReference)
deriving DecidableEq, Repr

namespace BuildError

def message : BuildError → String
  | alreadyLinked function => s!"function `{function}` is already linked"
  | unknownBlock block function =>
    s!"block {block.text} does not belong to function `{function}`"
  | duplicateSymbol name => s!"the name `{name}` is already defined"
  | foreignFunction function => s!"function `{function}` was created by a different builder"
  | unknownSymbol id => s!"symbol {id.text} does not exist in this builder"
  | shapeMismatch operation expected found =>
    s!"`{operation.mnemonic}` is {expected.text}-shaped " ++
      s!"but was given a {found.text}-shaped encoding"
  | immediateOperand operation descriptor =>
    s!"`{operation.mnemonic}` was given the immediate descriptor " ++
      s!"`{descriptor.text}` without a value"
  | narrowWordTarget operation width =>
    s!"`{operation.mnemonic}` needs an 8-byte target but was given an {width.text} immediate"
  | malformedInstruction offset => s!"malformed instruction at {Hex.address offset}"
  | unresolvedReferences references =>
    "unresolved references: " ++ ", ".intercalate (references.map UnresolvedReference.text)

end BuildError

/-- Why a step did not go through. -/
inductive Failure where
  | error (e : BuildError)
  | fault (f : Fault)
deriving DecidableEq, Repr

end ImageLinker
