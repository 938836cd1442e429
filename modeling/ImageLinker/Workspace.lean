import ImageLinker.Entry
import ImageLinker.Listing
import ImageLinker.Machine

/-!
# Workspaces

A workspace keeps builders, functions, block handles, images and machines under names, so that a
program can be built step by step. Each kind of thing has names of its own. A step that fails stores
nothing under a name, and the steps after it go on from there. Only a fault that the step is not
asked about ends the run.

The workspace hands out the identities of builders and keeps a journal of events.
-/

namespace ImageLinker

/-- Things under names. -/
structure Slots (α : Type) where
  entries : List (String × α) := []

namespace Slots

variable {α : Type}

def get? (s : Slots α) (name : String) : Option α :=
  s.entries.lookup name

def erase (s : Slots α) (name : String) : Slots α :=
  ⟨s.entries.filter fun entry => entry.1 != name⟩

/-- Puts a thing under a name, in the place of what was there. -/
def set (s : Slots α) (name : String) (a : α) : Slots α :=
  ⟨(name, a) :: (s.erase name).entries⟩

@[simp] theorem get?_set_self (s : Slots α) (name : String) (a : α) :
    (s.set name a).get? name = some a := by
  simp [get?, set]

end Slots

/-- Builders and what they made, under names. -/
structure Workspace where
  /-- The number of builders created so far. -/
  builderCount : Nat := 0
  builders : Slots Builder := {}
  functions : Slots Function := {}
  refs : Slots BlockRef := {}
  images : Slots Image := {}
  machines : Slots Machine := {}
  /-- What happened so far. -/
  journal : Array Event := #[]

/-- Why a step of a workspace did not go through. -/
inductive Refusal where
  /-- Nothing has this name. -/
  | noSlot (name : String)
  | error (e : BuildError)
  /-- A fault that the step reports. -/
  | fault (f : Fault)
  /-- A fault that ends the run. -/
  | halt (f : Fault)
deriving DecidableEq, Repr

/-- A step that reads and changes a workspace. Changes before a refusal stay. -/
abbrev Step := ExceptT Refusal (StateM Workspace)

namespace Step

def found {α : Type} (name : String) : Option α → Step α
  | some a => pure a
  | none => throw (.noSlot name)

def ofRefusal {α : Type} : Except Refusal α → Step α
  | .ok a => pure a
  | .error r => throw r

def ofError {α : Type} : Except BuildError α → Step α
  | .ok a => pure a
  | .error e => throw (.error e)

def ofFault {α : Type} : Except Fault α → Step α
  | .ok a => pure a
  | .error f => throw (.halt f)

def ofFailure {α : Type} : Except Failure α → Step α
  | .ok a => pure a
  | .error (.error e) => throw (.error e)
  | .error (.fault f) => throw (.halt f)

def record (events : Array Event) : Step Unit :=
  modify fun w => { w with journal := w.journal ++ events }

end Step

namespace Workspace

/-! ## Looking things up -/

def builderAt (name : String) : Step Builder := do
  Step.found name ((← get).builders.get? name)

def functionAt (name : String) : Step Function := do
  Step.found name ((← get).functions.get? name)

def refAt (name : String) : Step BlockRef := do
  Step.found name ((← get).refs.get? name)

def imageAt (name : String) : Step Image := do
  Step.found name ((← get).images.get? name)

def machineAt (name : String) : Step Machine := do
  Step.found name ((← get).machines.get? name)

def setBuilder (name : String) (b : Builder) : Step Unit :=
  modify fun w => { w with builders := w.builders.set name b }

def setFunction (name : String) (f : Function) : Step Unit :=
  modify fun w => { w with functions := w.functions.set name f }

def setRef (name : String) (r : BlockRef) : Step Unit :=
  modify fun w => { w with refs := w.refs.set name r }

def setImage (name : String) (image : Image) : Step Unit :=
  modify fun w => { w with images := w.images.set name image }

def setMachine (name : String) (m : Machine) : Step Unit :=
  modify fun w => { w with machines := w.machines.set name m }

/-- The block of a function behind a handle. The handle is looked up first. -/
def blockAt (function ref : String) : Step (Option Block) := do
  let r ← refAt ref
  let f ← functionAt function
  return f.block? r

/-! ## Building -/

/-- Creates a builder with an identity of its own and bytes reserved for its image. -/
def newBuilder (slot : String) (capacity : Nat := initialCapacity) : Step Builder := do
  let b ← Step.ofFault (Builder.reserving capacity ⟨(← get).builderCount⟩)
  modify fun w => { w with builderCount := w.builderCount + 1 }
  setBuilder slot b
  return b

def newFunction (builder name slot : String) : Step Function := do
  let b ← builderAt builder
  let (result, b) := b.newFunction name
  setBuilder builder b
  let f ← Step.ofError result
  setFunction slot f
  return f

/-- Makes an independent copy of a function, with the same symbol and builder. -/
def copyFunction (function slot : String) : Step Unit := do
  setFunction slot (← functionAt function)

def appendBlock (builder function slot : String) : Step BlockRef := do
  let b ← builderAt builder
  let f ← functionAt function
  let (result, b) := b.appendBlock f
  setBuilder builder b
  let (r, f) ← Step.ofFailure result
  setFunction function f
  setRef slot r
  return r

/-- A block after a write, and where it ended before. -/
structure Written where
  block : Block
  codeStart : Nat
  fixupStart : Nat
deriving DecidableEq, Repr

namespace Written

/-- The bytes that were added. -/
def bytes (w : Written) : List UInt8 :=
  (w.block.code.extract w.codeStart).toList

/-- The fixups that were recorded. -/
def fixups (w : Written) : List Fixup :=
  (w.block.fixups.extract w.fixupStart).toList

end Written

/-- Repeats a write, up to the first failure. -/
def repeated {ε : Type} (step : Block → Except ε Block) : Nat → Block → Except ε Block
  | 0, block => .ok block
  | n + 1, block =>
    match step block with
    | .error e => .error e
    | .ok block => repeated step n block

/-- Writes an instruction into the block behind a handle a number of times. The handle is looked up
before the function. -/
def writeBlock (function ref : String) (i : Instruction) (times : Nat)
    (step : Block → Except Refusal Block) : Step Written := do
  let r ← refAt ref
  let f ← functionAt function
  let before ← Step.ofError (f.writableBlock r)
  let block ← Step.ofRefusal (repeated step times before)
  Step.record (Array.replicate times (.encoded i))
  setFunction function (f.setBlock r block)
  return { block, codeStart := before.size, fixupStart := before.fixups.size }

/-- Writes an instruction after checking it. -/
def emit (function ref : String) (i : Instruction) (times : Nat) : Step Written :=
  writeBlock function ref i times fun block => (block.emit i).mapError .error

/-- Writes an operation through an entry point. -/
def call (function ref : String) (entry : Entry) (times : Nat) : Step Written :=
  writeBlock function ref entry.instruction times fun block => (block.call entry).mapError .fault

/-- Links a function into the image of a builder. -/
def link (builder function : String) : Step SymbolId := do
  let before ← builderAt builder
  let f ← functionAt function
  let (after, linked) ← Step.ofFailure (before.link f)
  Step.record (before.linkEvents f after).toArray
  setBuilder builder after
  setFunction function linked
  return f.symbol

/-! ## Globals -/

def addGlobal (builder name : String) : Step Global := do
  let b ← builderAt builder
  let (g, b) ← Step.ofError (b.addGlobal name)
  setBuilder builder b
  return g

/-- Appends bytes to a global, if there is one of that name. -/
def appendToGlobal (builder name : String) (bytes : List UInt8) : Step (Option Global) := do
  let b ← builderAt builder
  match b.global? name with
  | none => return none
  | some g =>
    let g := { g with code := g.code ++ bytes }
    setBuilder builder (b.setGlobal g)
    return some g

/-- Encodes an instruction into a global, if there is one of that name. The result is the global and
the fixup that the instruction would leave. -/
def encodeGlobal (builder name : String) (i : Instruction) :
    Step (Option (Global × Option Fixup)) := do
  let b ← builderAt builder
  match b.global? name with
  | none => return none
  | some g =>
    let (code, fixup) ← Step.ofError (i.encode g.code)
    Step.record #[.encoded i]
    let g := { g with code }
    setBuilder builder (b.setGlobal g)
    return some (g, fixup)

/-! ## Images and machines -/

/-- Completes the image of a builder. The builder is used up even if that fails. -/
def finish (builder slot : String) : Step Image := do
  let b ← builderAt builder
  modify fun w => { w with builders := w.builders.erase builder }
  let image ← Step.ofError b.finish
  Step.record #[.finished image.code.size image.symbols.size]
  setImage slot image
  return image

/-- The rows of the listing of an image and their text. -/
def listing (image : String) : Step (List ListingRow × String) := do
  let rows ← Step.ofError (← imageAt image).listingRows
  return (rows, ← Step.ofFault (Image.listingText rows))

/-- An image as text. -/
def imageText (image : String) : Step String := do
  Step.ofFault (← imageAt image).text

/-- Creates a machine with the given code. -/
def newMachine (code : Code) (slot : String) : Step Machine := do
  let m : Machine := { code }
  setMachine slot m
  return m

/-- Loads an image into a new machine and uses it up. -/
def loadImage (image slot : String) : Step Machine := do
  let loaded ← imageAt image
  modify fun w => { w with images := w.images.erase image }
  let m := Machine.ofImage loaded
  setMachine slot m
  return m

def setRegister (machine : String) (register : Register) (value : UInt64) : Step Unit := do
  let m ← machineAt machine
  setMachine machine (m.setRegister value register)

/-- Appends bytes to the stack of a machine. -/
def growStack (machine : String) (added : Addition) : Step Machine := do
  let m ← machineAt machine
  let m := { m with stack := ← Step.ofFault (added.appendTo m.stack) }
  setMachine machine m
  return m

/-- Appends bytes to the heap of a machine. -/
def growHeap (machine : String) (added : Addition) : Step Machine := do
  let m ← machineAt machine
  let m := { m with heap := ← Step.ofFault (added.appendTo m.heap) }
  setMachine machine m
  return m

/-! ## Running -/

/-- Runs steps one after the other. A refused step is answered by its refusal, and the steps after it
go on; a step that halts ends the run, and its fault takes the place of all answers. -/
def run {α : Type} (w : Workspace) :
    List (Step α) → Except Fault (List (Except Refusal α)) × Workspace
  | [] => (.ok [], w)
  | step :: rest =>
    match StateT.run (ExceptT.run step) w with
    | (.error (.halt f), w) => (.error f, w)
    | (answer, w) =>
      let (answers, w) := w.run rest
      (answers.map (answer :: ·), w)

end Workspace

end ImageLinker
