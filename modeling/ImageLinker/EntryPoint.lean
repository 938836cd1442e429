import ImageLinker.Value

/-!
# Entry points by name

Every operation can be written through entry points of its own, each under a name: the name of the
operation, and behind it what the entry point is given. Operations that are written in the same ways
form a group. The groups are listed here, apart from the shapes of the operations.

* `EntryPoint.all`: all entry points, `EntryPoint.ofName?`: the one of a given name.
* `EntryPoint.call?`: what a call of an entry point writes, if it is given what it asks for.
-/

namespace ImageLinker

/-- What an entry point asks for, and the place where it puts it. -/
inductive Signature where
  /-- Nothing: the argument is the right register. -/
  | implicit
  /-- A value as the argument. -/
  | immediate
  /-- The descriptor of the argument. -/
  | source
  /-- Nothing: the register is the one used by default. -/
  | register
  /-- The register. -/
  | registerUsing
  /-- A value that has the width. -/
  | widthOf
  /-- The width. -/
  | width
  /-- Nothing: the target is in the left register. -/
  | jump
  /-- The target. -/
  | jumpTo
  /-- Nothing, and there are no operands. -/
  | nullary
deriving DecidableEq, Repr

namespace Signature

/-- What the name of the entry point has behind that of the operation. -/
def suffix : Signature → String
  | immediate | jumpTo => "_imm"
  | source => "_source"
  | registerUsing => "_using"
  | width => "_width"
  | implicit | register | widthOf | jump | nullary => ""

/-- The ways in which the operations of a group are written. -/
def ofGroup : Shape → List Signature
  | .argument => [implicit, immediate, source]
  | .register => [register, registerUsing]
  | .size => [widthOf, width]
  | .word => [jump, jumpTo]
  | .nullary => [nullary]

end Signature

/-- What is given to an entry point. -/
inductive Given where
  | nothing
  | value (v : Value)
  | source (descriptor : Source)
  | dest (descriptor : Dest)
  | register (mode : RegisterMode)
  | width (w : Width)
deriving DecidableEq

/-- A way to write an operation, under a name of its own. -/
structure EntryPoint where
  name : String
  operation : Operation
  signature : Signature
deriving DecidableEq, Repr

namespace EntryPoint

/-- The operations of a group, with the names that those of their entry points begin with. -/
def group : Shape → List (Operation × String)
  | .argument =>
    [(.or, "or"), (.and, "and"), (.add, "add"), (.sub, "sub"), (.mul, "mul"), (.div, "div"),
     (.mulS, "muls"), (.divS, "divs"), (.addF, "addf"), (.subF, "subf"), (.mulF, "mulf"),
     (.divF, "divf"), (.shr, "shr"), (.shl, "shl"), (.cmp, "cmp"), (.cmpF, "cmpf"),
     (.fToI, "ftoi"), (.iToF, "itof"), (.load8, "load8"), (.load16, "load16"),
     (.load32, "load32"), (.load64, "load64"), (.stor8, "stor8"), (.stor16, "stor16"),
     (.stor32, "stor32"), (.stor64, "stor64"), (.push, "push"), (.pop, "pop")]
  | .register =>
    [(.neg, "neg"), (.sx8To16, "sx8to16"), (.sx8To32, "sx8to32"), (.sx8To64, "sx8to64"),
     (.sx16To32, "sx16to32"), (.sx16To64, "sx16to64"), (.sx32To64, "sx32to64"),
     (.f32To64, "f32to64"), (.f64To32, "f64to32"), (.push8, "push8"), (.push16, "push16"),
     (.push32, "push32"), (.push64, "push64"), (.pop8, "pop8"), (.pop16, "pop16"),
     (.pop32, "pop32"), (.pop64, "pop64")]
  | .size => [(.loadIL, "load_il"), (.loadIR, "load_ir")]
  | .word =>
    [(.jmp, "jmp"), (.jeq, "jeq"), (.jne, "jne"), (.jl, "jl"), (.jle, "jle"), (.jg, "jg"),
     (.jge, "jge"), (.call, "call"), (.cCall, "ccall")]
  | .nullary => [(.stop, "stop"), (.xchg, "xchg"), (.dump, "dump")]

/-- The entry points of the operations of a group. -/
def ofGroup (s : Shape) : List EntryPoint :=
  (group s).flatMap fun (op, base) =>
    (Signature.ofGroup s).map fun signature => ⟨base ++ signature.suffix, op, signature⟩

/-- All entry points. -/
def all : List EntryPoint :=
  [Shape.argument, .register, .size, .word, .nullary].flatMap ofGroup

/-- The entry point of the given name. -/
def ofName? (name : String) : Option EntryPoint :=
  all.find? fun p => p.name == name

/-- What a call of the entry point writes. There is nothing that it could write if it is not given
what it asks for, or if its operation has another shape. -/
def call? (p : EntryPoint) (given : Given) : Option Entry :=
  match p.signature, given with
  | .implicit, .nothing => (p.operation.ofShape? _).map .implicit
  | .immediate, .value v => (p.operation.ofShape? _).map (.immediate · v.toImmediate)
  | .source, .source descriptor => (p.operation.ofShape? _).map (.source · descriptor)
  | .source, .dest descriptor => (p.operation.ofShape? _).map (.source · descriptor.toSource)
  | .register, .nothing => (p.operation.ofShape? _).map .register
  | .registerUsing, .register mode => (p.operation.ofShape? _).map (.registerUsing · mode)
  | .widthOf, .value v => (p.operation.ofShape? _).map (.widthOf · v.toImmediate)
  | .width, .width w => (p.operation.ofShape? _).map (.width · w)
  | .jump, .nothing => (p.operation.ofShape? _).map .jump
  | .jumpTo, .value v =>
    if v.isTarget then do
      return .jumpTo (← p.operation.ofShape? _) (← Target.ofImmediate? v.toImmediate)
    else none
  | .nullary, .nothing => (p.operation.ofShape? _).map .nullary
  | _, _ => none

end EntryPoint

end ImageLinker
