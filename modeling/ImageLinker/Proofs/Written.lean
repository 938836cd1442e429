import ImageLinker.Entry
import ImageLinker.Function
import ImageLinker.Proofs.Relocation
import Mathlib.Data.List.Forall2

/-!
# Blocks and functions as lists of instructions

A block that is still open is nothing but the instructions that were written into it: its code is
their code and its fixups are their fixups (`Block.Holds`). A function that is still open is a list
of such blocks (`Function.Holds`), and what its blocks add up to is again the code of a list of
instructions.

* `Block.Holds.foldl_append`: writing keeps a block in this form, through either way of writing
  (`Block.emit_eq_ok`, `Block.call_eq_ok`).
* `Block.linkedCode`: the code of a block with its references written, from its bytes and fixups
  alone; `Block.Holds.linkedCode_eq` says that it is the code of its instructions.
* `placedFrom`: blocks one behind the other, with their addresses; `placedFrom_fixups` says that
  the fixups of all blocks, moved to these addresses, are the fixups of all instructions.
-/

namespace ImageLinker

/-! ## Blocks -/

namespace Block

/-- The block that instructions make when they are written into an empty one. -/
def ofInstructions (symbol : SymbolId) (is : List Instruction) : Block :=
  is.foldl append { symbol }

/-- A block into which exactly these instructions were written, all of which pass the check. -/
structure Holds (b : Block) (is : List Instruction) : Prop where
  eq_ofInstructions : b = ofInstructions b.symbol is
  checked : ∀ i ∈ is, i.check? = none

theorem code_foldl_append (b : Block) (is : List Instruction) :
    (is.foldl append b).code = b.code ++ codeAt (fun _ => 0) is := by
  induction is generalizing b with
  | nil => simp
  | cons i is ih =>
    rw [List.foldl_cons, ih, code_append, codeAt_cons, Instruction.bytesAt_zero]
    exact Array.ext' (by simp)

theorem fixups_foldl_append (b : Block) (is : List Instruction) :
    (is.foldl append b).fixups = b.fixups ++ fixupsFrom b.code.size is := by
  induction is generalizing b with
  | nil => simp [fixupsFrom]
  | cons i is ih =>
    have hsize : (b.append i).code.size = b.code.size + i.encodedSize := by
      rw [code_append, ← Array.length_toList]
      simp
    rw [List.foldl_cons, ih, fixups_append, hsize, fixupsFrom]
    exact Array.ext' (by simp)

theorem symbol_foldl_append (b : Block) (is : List Instruction) :
    (is.foldl append b).symbol = b.symbol := by
  induction is generalizing b with
  | nil => rfl
  | cons i is ih => rw [List.foldl_cons, ih, symbol_append]

namespace Holds

variable {b : Block} {is : List Instruction}

theorem code_eq (h : b.Holds is) : b.code = (codeAt (fun _ => 0) is).toArray := by
  rw [h.eq_ofInstructions, ofInstructions, code_foldl_append]
  exact Array.ext' (by simp)

theorem fixups_eq (h : b.Holds is) : b.fixups.toList = fixupsFrom 0 is := by
  rw [h.eq_ofInstructions, ofInstructions, fixups_foldl_append]
  simp

theorem size_eq (h : b.Holds is) : b.size = codeSize is := by
  rw [size, h.code_eq, List.size_toArray, length_codeAt]

theorem empty (symbol : SymbolId) : Holds { symbol } [] :=
  ⟨rfl, by simp⟩

theorem foldl_append (h : b.Holds is) {js : List Instruction} (hjs : ∀ j ∈ js, j.check? = none) :
    (js.foldl append b).Holds (is ++ js) := by
  constructor
  · rw [ofInstructions, List.foldl_append, symbol_foldl_append]
    change _ = js.foldl append (ofInstructions b.symbol is)
    rw [← h.eq_ofInstructions]
  · intro j hj
    rcases List.mem_append.mp hj with hj | hj
    · exact h.checked j hj
    · exact hjs j hj

end Holds

theorem emit_eq_ok {b b' : Block} {i : Instruction} (h : b.emit i = .ok b') :
    b' = b.append i ∧ i.check? = none := by
  unfold emit at h
  split at h
  · cases h
  · rename_i hcheck
    cases h
    exact ⟨rfl, hcheck⟩

end Block

theorem Entry.shape_instruction (entry : Entry) :
    entry.instruction.operation.shape = entry.instruction.shape := by
  cases entry with
  | implicit op => exact op.property
  | immediate op value => exact op.property
  | source op descriptor => exact op.property
  | register op => exact op.property
  | registerUsing op mode => exact op.property
  | widthOf op value => exact op.property
  | width op w => exact op.property
  | jump op => exact op.property
  | jumpTo op target => exact op.property
  | nullary op => exact op.property

/-- What an entry point writes would pass the check as well. -/
theorem Entry.check?_instruction {entry : Entry} (h : entry.require = .ok ()) :
    entry.instruction.check? = none := by
  have hshape := entry.shape_instruction
  unfold Instruction.check?
  simp only [hshape, ne_eq, not_true_eq_false, if_false]
  cases entry with
  | source op descriptor =>
    -- The types leave one thing open: the descriptor must not announce an immediate.
    cases hi : descriptor.isImmediate with
    | false => simp [instruction, hi]
    | true => simp [require, Source.requireExplicit, hi] at h
  | jumpTo op target => simp [instruction]
  | _ => rfl

theorem Block.call_eq_ok {b b' : Block} {entry : Entry} (h : b.call entry = .ok b') :
    b' = b.append entry.instruction ∧ entry.instruction.check? = none := by
  unfold call at h
  cases hr : entry.require with
  | error fault => simp [hr, bind, Except.bind] at h
  | ok u =>
    simp only [hr, bind, Except.bind, pure, Except.pure, Except.ok.injEq] at h
    exact ⟨h.symm, Entry.check?_instruction hr⟩

/-! ## Blocks in an image -/

/-- The eight bytes that belong where code refers to a symbol: its address, or zeros while it has
none. -/
def Symbols.referenceBytes (s : Symbols) (id : SymbolId) : List UInt8 :=
  match s.addressOf? id with
  | some a => leBytes addressSize a
  | none => List.replicate addressSize 0

theorem Symbols.referenceBytes_eq (s : Symbols) (id : SymbolId) :
    s.referenceBytes id = leBytes addressSize (s.valueOf id) := by
  unfold referenceBytes valueOf
  cases s.addressOf? id with
  | none => exact (leBytes_zero _).symm
  | some a => rfl

/-- The code of a block once it is in an image: the eight bytes at each fixup are those of its
symbol. -/
def Block.linkedCode (symbols : Symbols) (b : Block) : List UInt8 :=
  let write (code : Code) (f : Fixup) : Code :=
    code.overwrite f.offset (symbols.referenceBytes f.symbol)
  (b.fixups.toList.foldl write b.code).toList

/-- Writing all references of code that was never linked gives its linked code. Induction on the
instructions, as for `foldlM_patchStep_codeAt`; here every fixup is written, if only with zeros. -/
theorem foldl_overwrite_codeAt (symbols : Symbols) (is : List Instruction)
    (before after : List UInt8) :
    (fixupsFrom before.length is).foldl
        (fun code f => Code.overwrite code f.offset (symbols.referenceBytes f.symbol))
        (before ++ codeAt (fun _ => 0) is ++ after).toArray =
      (before ++ codeAt symbols.valueOf is ++ after).toArray := by
  induction is generalizing before with
  | nil => rfl
  | cons i is ih =>
    have hrest := ih (before ++ i.bytesAt symbols.valueOf)
    rw [List.length_append, Instruction.length_bytesAt] at hrest
    rw [fixupsFrom, List.foldl_append, codeAt_cons, codeAt_cons]
    rcases i.reference_cases with ⟨hnone, hbytes⟩ | ⟨id, hsome, hbytes⟩
    · simpa [hnone, hbytes] using hrest
    · have hwrite := Code.overwrite_append (before ++ i.head) (leBytes addressSize 0)
        (symbols.referenceBytes id) (codeAt (fun _ => 0) is ++ after)
        (by simp [Symbols.referenceBytes_eq])
      rw [List.length_append] at hwrite
      simp only [hsome, hbytes, Option.toList_some, List.foldl_cons, List.foldl_nil,
        List.append_assoc] at hwrite hrest ⊢
      rw [hwrite, Symbols.referenceBytes_eq]
      exact hrest

namespace Block.Holds

variable {b : Block} {is : List Instruction}

theorem linkedCode_eq (h : b.Holds is) (symbols : Symbols) :
    b.linkedCode symbols = codeAt symbols.valueOf is := by
  have hwrite := foldl_overwrite_codeAt symbols is [] []
  simp only [List.length_nil, List.nil_append, List.append_nil] at hwrite
  simp only [linkedCode, h.fixups_eq, h.code_eq, hwrite]

theorem patch_eq (h : b.Holds is) (symbols : Symbols)
    (hknown : ∀ f ∈ b.fixups, (symbols.get? f.symbol).isSome) :
    patch symbols b.code b.fixups.toList =
      .ok ((codeAt symbols.valueOf is).toArray, (fixupsFrom 0 is).filter symbols.isWaiting) := by
  rw [h.code_eq, h.fixups_eq]
  apply patch_written
  intro f hf
  rw [← h.fixups_eq] at hf
  exact hknown f (Array.mem_toList_iff.mp hf)

end Block.Holds

/-! ## Functions -/

/-- Blocks one behind the other from `start` on, with their addresses. -/
def placedFrom (start : Nat) : List Block → List (Nat × Block)
  | [] => []
  | b :: bs => (start, b) :: placedFrom (start + b.size) bs

theorem exists_mem_placedFrom (start : Nat) {bs : List Block} {b : Block} (h : b ∈ bs) :
    ∃ a, (a, b) ∈ placedFrom start bs := by
  induction bs generalizing start with
  | nil => cases h
  | cons c bs ih =>
    rcases List.mem_cons.mp h with rfl | h
    · exact ⟨start, List.mem_cons_self⟩
    · obtain ⟨a, ha⟩ := ih (start + c.size) h
      exact ⟨a, List.mem_cons_of_mem _ ha⟩

theorem placedFrom_bounds {start : Nat} {bs : List Block} {p : Nat × Block}
    (h : p ∈ placedFrom start bs) :
    p.2 ∈ bs ∧ start ≤ p.1 ∧ p.1 + p.2.size ≤ start + (bs.map Block.size).sum := by
  induction bs generalizing start with
  | nil => cases h
  | cons c bs ih =>
    rw [List.map_cons, List.sum_cons]
    rcases List.mem_cons.mp h with rfl | h
    · exact ⟨List.mem_cons_self, Nat.le_refl _, by simp only []; omega⟩
    · obtain ⟨hmem, hle, hend⟩ := ih h
      exact ⟨List.mem_cons_of_mem _ hmem, by omega, by omega⟩

/-- A function into whose blocks exactly these instructions were written. -/
def Function.Holds (f : Function) (text : List (List Instruction)) : Prop :=
  List.Forall₂ Block.Holds f.blocks.toList text

section Blocks

variable {bs : List Block} {text : List (List Instruction)}

theorem sum_size_of_holds (h : List.Forall₂ Block.Holds bs text) :
    (bs.map Block.size).sum = codeSize text.flatten := by
  induction h with
  | nil => rfl
  | cons hb _ ih => simp [hb.size_eq, ih]

/-- Only what passes the check gets into a block, through either way of writing. -/
theorem checked_of_holds (h : List.Forall₂ Block.Holds bs text) :
    ∀ i ∈ text.flatten, i.check? = none := by
  induction h with
  | nil => simp
  | cons hb _ ih =>
    intro i hi
    rcases List.mem_append.mp hi with hi | hi
    · exact hb.checked i hi
    · exact ih i hi

theorem flatMap_linkedCode_of_holds (h : List.Forall₂ Block.Holds bs text) (symbols : Symbols) :
    bs.flatMap (Block.linkedCode symbols) = codeAt symbols.valueOf text.flatten := by
  induction h with
  | nil => rfl
  | cons hb _ ih => simp [hb.linkedCode_eq, ih]

/-- The fixups of blocks, moved to where the blocks stand, are the fixups of their instructions. -/
theorem placedFrom_fixups (h : List.Forall₂ Block.Holds bs text) (start : Nat) :
    (placedFrom start bs).flatMap
        (fun p => p.2.fixups.toList.map fun f => { f with offset := f.offset + p.1 }) =
      fixupsFrom start text.flatten := by
  induction h generalizing start with
  | nil => rfl
  | cons hb _ ih =>
    have hmoved := fixupsFrom_add start 0
    rw [Nat.zero_add] at hmoved
    rw [placedFrom, List.flatMap_cons, ih, List.flatten_cons, fixupsFrom_append, hb.size_eq,
      hmoved, hb.fixups_eq]

end Blocks

end ImageLinker
