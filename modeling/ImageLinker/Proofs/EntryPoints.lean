import ImageLinker.EntryPoint
import ImageLinker.Proofs.Session
import Mathlib.Data.List.Nodup

/-!
# Entry points and checked writing

An entry point writes its instruction without a check. That is sound only if the groups in which the
operations are listed are those of their shapes, and if whatever can be given as a target takes the
bytes of an address. Then every call does what checked writing of the same instruction does. The one
thing that is left to check is a descriptor that announces a value, and it is refused before
anything is written.

* `EntryPoint.Denotes`: the instruction that a call stands for, by the signature of the entry point.
* `EntryPoint.mem_group_iff`: the groups are those of the shapes.
* `EntryPoint.exists_ofName?_iff`: an operation has the entry points of its shape, under names of
  their own.
* `EntryPoint.call?_of_denotes`, `EntryPoint.denotes_of_call?`: what is called for is there to be
  written, and nothing else is written.
* `entryPoints_emit`: all of this in terms of blocks and workspaces.
-/

namespace ImageLinker

/-! ## What a call stands for -/

/-- The shape of the instructions that entry points of this signature write. -/
def Signature.shape : Signature → Shape
  | implicit | immediate | source => .argument
  | register | registerUsing => .register
  | widthOf | width => .size
  | jump | jumpTo => .word
  | nullary => .nullary

theorem Signature.mem_ofGroup_iff {signature : Signature} {s : Shape} :
    signature ∈ ofGroup s ↔ signature.shape = s := by
  cases s <;> cases signature <;> decide

theorem Source.requireExplicit_of_not {a : Source} (h : a.isImmediate = false) :
    a.requireExplicit = .ok () := by
  rw [requireExplicit, h]
  rfl

namespace Given

/-- No descriptor that announces a value was given. -/
def Explicit (given : Given) : Prop :=
  ∀ descriptor, given = .source descriptor → descriptor.isImmediate = false

/-- What is required of what is given, whatever it is given to. -/
def require : Given → Except Fault Unit
  | source descriptor => descriptor.requireExplicit
  | _ => .ok ()

theorem Explicit.require {given : Given} (h : given.Explicit) : given.require = .ok () := by
  cases given with
  | source descriptor => exact Source.requireExplicit_of_not (h descriptor rfl)
  | nothing => rfl
  | value v => rfl
  | dest descriptor => rfl
  | register mode => rfl
  | width w => rfl

end Given

namespace EntryPoint

/-- A call of the entry point is well-typed and stands for the instruction. -/
inductive Denotes : EntryPoint → Given → Instruction → Prop where
  | implicit {name : String} {op : Operation} :
    Denotes ⟨name, op, .implicit⟩ .nothing (.argument op .implicit)
  | immediate {name : String} {op : Operation} (v : Value) :
    Denotes ⟨name, op, .immediate⟩ (.value v) (.argument op (.immediate v.toImmediate))
  | source {name : String} {op : Operation} (descriptor : Source) :
    Denotes ⟨name, op, .source⟩ (.source descriptor) (.argument op (.operand descriptor))
  /-- Every destination is also a source. -/
  | dest {name : String} {op : Operation} (descriptor : Dest) :
    Denotes ⟨name, op, .source⟩ (.dest descriptor) (.argument op (.operand descriptor.toSource))
  | register {name : String} {op : Operation} :
    Denotes ⟨name, op, .register⟩ .nothing (.register op .usesLeft)
  | registerUsing {name : String} {op : Operation} (mode : RegisterMode) :
    Denotes ⟨name, op, .registerUsing⟩ (.register mode) (.register op mode)
  | widthOf {name : String} {op : Operation} (v : Value) :
    Denotes ⟨name, op, .widthOf⟩ (.value v) (.size op v.toImmediate.width)
  | width {name : String} {op : Operation} (w : Width) :
    Denotes ⟨name, op, .width⟩ (.width w) (.size op w)
  | jump {name : String} {op : Operation} :
    Denotes ⟨name, op, .jump⟩ .nothing (.word op none)
  | jumpTo {name : String} {op : Operation} (v : Value) (h : v.isTarget) :
    Denotes ⟨name, op, .jumpTo⟩ (.value v) (.word op (some v.toImmediate))
  | nullary {name : String} {op : Operation} :
    Denotes ⟨name, op, .nullary⟩ .nothing (.nullary op)

variable {p : EntryPoint} {given : Given} {i : Instruction}

theorem map_ofShape? {op : Operation} {s : Shape} (h : op.shape = s)
    (f : Operation.OfShape s → Entry) : (op.ofShape? s).map f = some (f ⟨op, h⟩) := by
  rw [Operation.ofShape?_of_shape h, Option.map_some]

/-- A value of a kind that can be a target is one, so that only the shape is left to ask for. -/
theorem exists_call?_jumpTo {name : String} {op : Operation} {v : Value} (h : v.isTarget) :
    ∃ t : Target, t.immediate = v.toImmediate ∧ call? ⟨name, op, .jumpTo⟩ (.value v) =
      (op.ofShape? .word).map (.jumpTo · t) := by
  obtain ⟨t, ht, himmediate⟩ := Value.target?_of_isTarget h
  refine ⟨t, himmediate, ?_⟩
  simp only [call?, h, ht, if_true, Option.bind_eq_bind, Option.bind_some, Option.map_eq_bind]
  rfl

/-- If the operation has the shape that the signature asks for, then a well-typed call has something
to write, and all that can be required of it is what is required of a descriptor. -/
theorem call?_of_denotes (hshape : p.operation.shape = p.signature.shape) (h : p.Denotes given i) :
    ∃ entry, p.call? given = some entry ∧ entry.instruction = i ∧
      entry.require = given.require := by
  cases h with
  | implicit => exact ⟨.implicit ⟨_, hshape⟩, map_ofShape? hshape _, rfl, rfl⟩
  | immediate v =>
    exact ⟨.immediate ⟨_, hshape⟩ v.toImmediate, map_ofShape? hshape _, rfl, rfl⟩
  | source descriptor => exact ⟨.source ⟨_, hshape⟩ descriptor, map_ofShape? hshape _, rfl, rfl⟩
  | dest descriptor =>
    refine ⟨.source ⟨_, hshape⟩ descriptor.toSource, map_ofShape? hshape _, rfl, ?_⟩
    show descriptor.toSource.requireExplicit = .ok ()
    exact Source.requireExplicit_of_not descriptor.isImmediate_toSource
  | register => exact ⟨.register ⟨_, hshape⟩, map_ofShape? hshape _, rfl, rfl⟩
  | registerUsing mode => exact ⟨.registerUsing ⟨_, hshape⟩ mode, map_ofShape? hshape _, rfl, rfl⟩
  | widthOf v => exact ⟨.widthOf ⟨_, hshape⟩ v.toImmediate, map_ofShape? hshape _, rfl, rfl⟩
  | width w => exact ⟨.width ⟨_, hshape⟩ w, map_ofShape? hshape _, rfl, rfl⟩
  | jump => exact ⟨.jump ⟨_, hshape⟩, map_ofShape? hshape _, rfl, rfl⟩
  | jumpTo v htarget =>
    obtain ⟨t, himmediate, heq⟩ := exists_call?_jumpTo htarget
    refine ⟨.jumpTo ⟨_, hshape⟩ t, heq.trans (map_ofShape? hshape _), ?_, rfl⟩
    rw [Entry.instruction, himmediate]
  | nullary => exact ⟨.nullary ⟨_, hshape⟩, map_ofShape? hshape _, rfl, rfl⟩

theorem of_map_ofShape? {op : Operation} {s : Shape} {f : Operation.OfShape s → Entry}
    {entry : Entry} (h : (op.ofShape? s).map f = some entry) :
    ∃ hshape : op.shape = s, entry = f ⟨op, hshape⟩ := by
  by_cases hshape : op.shape = s
  · rw [map_ofShape? hshape] at h
    exact ⟨hshape, (Option.some.inj h).symm⟩
  · rw [Operation.ofShape?, dif_neg hshape] at h
    cases h

/-- What a call writes is what it stands for. -/
theorem denotes_of_call? {entry : Entry} (h : p.call? given = some entry) :
    p.Denotes given entry.instruction := by
  obtain ⟨name, op, signature⟩ := p
  cases signature <;> cases given <;> try cases h
  case jumpTo.value v =>
    by_cases htarget : v.isTarget
    · obtain ⟨t, himmediate, heq⟩ := @exists_call?_jumpTo name op v htarget
      obtain ⟨_, rfl⟩ := of_map_ofShape? (heq.symm.trans h)
      rw [Entry.instruction, himmediate]
      exact .jumpTo v htarget
    · simp [call?, htarget] at h
  all_goals
    obtain ⟨_, rfl⟩ := of_map_ofShape? h
    constructor

/-! ## The table -/

/-- The operations are listed in the groups of their shapes. -/
theorem mem_group_iff {op : Operation} {s : Shape} :
    op ∈ (group s).map Prod.fst ↔ op.shape = s := by
  cases s <;> cases op <;> decide

theorem mem_all_iff : p ∈ all ↔ p.signature.shape = p.operation.shape ∧
    ∃ base, (p.operation, base) ∈ group p.operation.shape ∧
      p.name = base ++ p.signature.suffix := by
  unfold all ofGroup
  simp only [List.mem_flatMap, List.mem_map]
  constructor
  · rintro ⟨s, -, ⟨op, base⟩, hop, signature, hsignature, rfl⟩
    have hs : op.shape = s := mem_group_iff.mp (List.mem_map.mpr ⟨_, hop, rfl⟩)
    subst hs
    exact ⟨Signature.mem_ofGroup_iff.mp hsignature, base, hop, rfl⟩
  · rintro ⟨hsignature, base, hop, hname⟩
    refine ⟨p.operation.shape, ?_, (p.operation, base), hop, p.signature,
      Signature.mem_ofGroup_iff.mpr hsignature, by rw [← hname]⟩
    cases p.operation.shape <;> decide

theorem names_nodup : (all.map name).Nodup := by
  -- Most names already differ in length, and lengths are cheaper to compare.
  have h : all.Pairwise fun p q =>
      p.name.utf8ByteSize ≠ q.name.utf8ByteSize ∨ p.name ≠ q.name := by
    decide +kernel
  refine List.pairwise_map.mpr (h.imp ?_)
  rintro p q (hsize | hname)
  · exact fun hname => hsize (congrArg String.utf8ByteSize hname)
  · exact hname

theorem ofName?_eq_some_iff {name : String} : ofName? name = some p ↔ p ∈ all ∧ p.name = name := by
  constructor
  · intro h
    exact ⟨List.mem_of_find?_eq_some h, by simpa using List.find?_some h⟩
  · rintro ⟨hp, rfl⟩
    cases hfind : all.find? (fun q => q.name == p.name) with
    | none => simpa using List.find?_eq_none.mp hfind p hp
    | some q =>
      have hname : q.name = p.name := by simpa using List.find?_some hfind
      have hq := List.mem_of_find?_eq_some hfind
      rw [ofName?, hfind, List.inj_on_of_nodup_map names_nodup hq hp hname]

theorem ofName?_of_mem_group (base : String) (hop : (p.operation, base) ∈ group p.operation.shape)
    (hsignature : p.signature.shape = p.operation.shape)
    (hname : p.name = base ++ p.signature.suffix) : ofName? p.name = some p :=
  ofName?_eq_some_iff.mpr ⟨mem_all_iff.mpr ⟨hsignature, base, hop, hname⟩, rfl⟩

/-- An operation can be written in the ways of its shape, each of which has a name, and in no
others. -/
theorem exists_ofName?_iff {op : Operation} {signature : Signature} :
    (∃ name p, ofName? name = some p ∧ p.operation = op ∧ p.signature = signature) ↔
      signature ∈ Signature.ofGroup op.shape := by
  rw [Signature.mem_ofGroup_iff]
  constructor
  · rintro ⟨name, p, hp, rfl, rfl⟩
    exact (mem_all_iff.mp (ofName?_eq_some_iff.mp hp).1).1
  · intro hsignature
    obtain ⟨⟨found, base⟩, hop, rfl⟩ := List.mem_map.mp (mem_group_iff.mpr (rfl : op.shape = _))
    have hp := ofName?_of_mem_group (p := ⟨base ++ signature.suffix, found, signature⟩) base hop
      hsignature rfl
    exact ⟨_, _, hp, rfl, rfl⟩

end EntryPoint

/-! ## Blocks -/

namespace Block

theorem emit_of_check {i : Instruction} (h : i.check? = none) (b : Block) :
    b.emit i = .ok (b.append i) := by
  rw [emit, h]

theorem call_of_require {entry : Entry} (h : entry.require = .ok ()) (b : Block) :
    b.call entry = .ok (b.append entry.instruction) := by
  rw [call, h]
  rfl

theorem call_of_fault {entry : Entry} {fault : Fault} (h : entry.require = .error fault)
    (b : Block) : b.call entry = .error fault := by
  rw [call, h]
  rfl

end Block

/-- Nothing was written before the fault. -/
theorem Workspace.exec_call_of_fault {w : Workspace} {function ref : String} {f : Function}
    {r : BlockRef} {b : Block} (hf : w.functions.get? function = some f)
    (hr : w.refs.get? ref = some r) (hblock : f.writableBlock r = .ok b) {entry : Entry}
    {fault : Fault} (h : b.call entry = .error fault) (times : Nat) :
    (Command.call function ref entry (times + 1)).step.exec w = (.error (.fault fault), w) := by
  simp [Command.step, Workspace.call, Workspace.writeBlock, Workspace.repeated, hf, hr, hblock, h,
    Except.mapError]

/-- **Entry points do what checked writing does.** Every operation has the entry points of its
shape, and no others. The calls that write anything are those that stand for an instruction. The
check accepts that instruction, and the call leaves the block as checked writing does, whatever the
block was; so both are the same step of a workspace. Where a descriptor announces a value that is
not there, the call faults, and nothing is changed. -/
theorem entryPoints_emit :
    (∀ op signature, (∃ name p, EntryPoint.ofName? name = some p ∧ p.operation = op ∧
      p.signature = signature) ↔ signature ∈ Signature.ofGroup op.shape) ∧
    (∀ p given entry, EntryPoint.call? p given = some entry →
      p.Denotes given entry.instruction) ∧
    ∀ name p given i, EntryPoint.ofName? name = some p → p.Denotes given i →
      ∃ entry, p.call? given = some entry ∧ entry.instruction = i ∧
        (given.Explicit →
          (∀ b : Block, ∃ b', b.emit i = .ok b' ∧ b.call entry = .ok b') ∧
          ∀ function ref times,
            Workspace.call function ref entry times = Workspace.emit function ref i times) ∧
        ∀ descriptor, given = .source descriptor → descriptor.isImmediate →
          (∀ b : Block, b.call entry = .error (.missingValue descriptor)) ∧
          ∀ (w : Workspace) function ref f r b times, w.functions.get? function = some f →
            w.refs.get? ref = some r → f.writableBlock r = .ok b →
            (Command.call function ref entry (times + 1)).step.exec w =
              (.error (.fault (.missingValue descriptor)), w) := by
  refine ⟨fun op signature => EntryPoint.exists_ofName?_iff,
    fun p given entry => EntryPoint.denotes_of_call?, ?_⟩
  intro name p given i hp hi
  have hshape := (EntryPoint.mem_all_iff.mp (EntryPoint.ofName?_eq_some_iff.mp hp).1).1
  obtain ⟨entry, hentry, rfl, hrequire⟩ := EntryPoint.call?_of_denotes hshape.symm hi
  refine ⟨entry, hentry, rfl, ?_, ?_⟩
  · intro hexplicit
    rw [hexplicit.require] at hrequire
    have hemit := Block.emit_of_check (Entry.check?_instruction hrequire)
    have hcall := Block.call_of_require hrequire
    refine ⟨fun b => ⟨_, hemit b, hcall b⟩, ?_⟩
    intro function ref times
    unfold Workspace.call Workspace.emit
    refine congrArg _ (funext fun b => ?_)
    rw [hcall, hemit]
    rfl
  · rintro descriptor rfl himmediate
    have hfault : entry.require = .error (.missingValue descriptor) := by
      rw [hrequire, Given.require, Source.requireExplicit, if_pos himmediate]
    refine ⟨Block.call_of_fault hfault, ?_⟩
    intro w function ref f r b times hf hr hblock
    exact Workspace.exec_call_of_fault hf hr hblock (Block.call_of_fault hfault b) times

/-- The negative zero is a zero like the other one: either way, the target takes no bytes. A
descriptor that announces a value faults. -/
theorem entryPoints_emit_negativeZero :
    (Instruction.word .jne (some (.float .bits64 0x8000000000000000))).bytes = [0xAD] ∧
    (∃ p entry, EntryPoint.ofName? "jne_imm" = some p ∧
      p.call? (.value (.float64 0x8000000000000000)) = some entry ∧
      ∀ b : Block, ∃ b', b.emit (.word .jne (some (.float .bits64 0x8000000000000000))) = .ok b' ∧
        b.call entry = .ok b') ∧
    ∃ p entry, EntryPoint.ofName? "add_source" = some p ∧ p.call? (.source .i8) = some entry ∧
      ∀ b : Block, b.call entry = .error (.missingValue .i8) := by
  refine ⟨by decide, ?_, ?_⟩
  · have hp := EntryPoint.ofName?_of_mem_group (p := ⟨"jne_imm", .jne, .jumpTo⟩) "jne"
      (by decide) rfl (by decide)
    obtain ⟨entry, hentry, -, hemit, -⟩ :=
      entryPoints_emit.2.2 _ _ _ _ hp (.jumpTo (.float64 0x8000000000000000) rfl)
    refine ⟨_, entry, hp, hentry, (hemit ?_).1⟩
    intro descriptor hgiven
    cases hgiven
  · have hp := EntryPoint.ofName?_of_mem_group (p := ⟨"add_source", .add, .source⟩) "add"
      (by decide) rfl (by decide)
    obtain ⟨entry, hentry, -, -, hfault⟩ := entryPoints_emit.2.2 _ _ _ _ hp (.source .i8)
    exact ⟨_, entry, hp, hentry, (hfault .i8 rfl rfl).1⟩

end ImageLinker
