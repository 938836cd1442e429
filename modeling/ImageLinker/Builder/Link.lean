import ImageLinker.Builder.Basic
import ImageLinker.Event

/-!
# Linking

A function that is linked gets the next free stretch of the image. First its symbol and those of its
blocks are placed there (`Symbols.place`); then block after block is patched with the addresses that
are known by now and appended (`Layout.append`); last, the references of earlier functions that
waited for these symbols are written.

All checks come before the first change, so a refused link leaves everything as it was.
-/

namespace ImageLinker

/-- Gives blocks their addresses, one behind the other from `cursor` on. The result also holds the
address behind the last block. -/
def Symbols.place (s : Symbols) (cursor : Nat) : List Block → Except Fault (Symbols × Nat)
  | [] => .ok (s, cursor)
  | block :: rest => do
    let s ← s.resolve block.symbol cursor block.size
    let next ← addAddress cursor block.size
    s.place next rest

namespace Builder

/-- Image code, the references that wait in it, and the blocks that were added to it. -/
structure Layout where
  code : Code
  pending : List Fixup
  blocks : Array Block := #[]
deriving DecidableEq, Repr

/-- Writes into a block what is known and appends it. What is not known waits in the image. -/
def Layout.append (symbols : Symbols) (l : Layout) (block : Block) : Except Fault Layout := do
  let base := l.code.size
  let (code, waiting) ← patch symbols block.code block.fixups.toList
  let waiting ← waiting.mapM fun fixup => fixup.relocated base
  return {
    code := l.code ++ code
    pending := l.pending ++ waiting
    blocks := l.blocks.push { block with code } }

/-- Gives a function its place at the end of the image. -/
def place (b : Builder) (f : Function) : Except Fault (Builder × Function) := do
  let base := b.code.size
  let (symbols, stop) ← b.symbols.place base f.blocks.toList
  let symbols ← symbols.resolve f.symbol base (stop - base)
  let start : Layout := { code := b.code, pending := b.pending }
  let layout ← f.blocks.toList.foldlM (Layout.append symbols) start
  let (code, pending) ← patch symbols layout.code layout.pending
  return ({ b with code, symbols, pending }, { f with blocks := layout.blocks, linked := true })

/-- The first symbol that the function refers to and the builder does not have. -/
def unknownSymbol? (b : Builder) (f : Function) : Option SymbolId :=
  (f.fixups.find? fun fixup => (b.symbols.get? fixup.symbol).isNone).map Fixup.symbol

/-- Links a function. -/
def link (b : Builder) (f : Function) : Except Failure (Builder × Function) := do
  b.checkUnlinked f
  match b.unknownSymbol? f with
  | some id => .error (.error (.unknownSymbol id))
  | none => (b.place f).mapError .fault

/-- What linking `f` told, for the builder before and after it. -/
def linkEvents (before : Builder) (f : Function) (after : Builder) : List Event :=
  let deferred := f.fixups.filterMap fun fixup => do
    let target ← after.symbols.get? fixup.symbol
    if target.isResolved then none else some (.deferred f.name target.name)
  let patched := before.pending.filterMap fun fixup =>
    (after.symbols.addressOf? fixup.symbol).map (.patched fixup)
  deferred ++ .linked f.name before.code.size f.size f.blocks.size :: patched

/-- The references that wait, by the names of their targets. Linking lets nothing wait for a symbol
outside of the arena, so every one of them has a name. -/
def unresolved (b : Builder) : List UnresolvedReference :=
  b.pending.filterMap fun fixup =>
    (b.symbols.get? fixup.symbol).map fun target => ⟨target.name, fixup.offset⟩

end Builder

end ImageLinker
