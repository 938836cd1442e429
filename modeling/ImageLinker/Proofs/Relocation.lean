import ImageLinker.Proofs.Disassembly

/-!
# Relocating written code

Linking writes addresses into code in two places: into a block before it joins the image, and into
the image when a function is linked that earlier code refers to. Both are `patch`, and both start
from code in which some references are written and the others hold zeros. Code is therefore taken as
a list of instructions here, and the arena says which references are written.

* `Instruction.reference_cases`: an instruction either refers to no symbol, or ends in the eight
  bytes of one address.
* `fixupsFrom start is`: the fixups of instructions, with the bounds that keep them apart
  (`fixupsFrom_bounds`, `fixupsFrom_pairwise`).
* `Symbols.Extends`: an arena in which more symbols have addresses.
* `patch_codeAt`: serving the fixups that wait brings code from one arena to the other. A block is
  the case in which every fixup waits (`patch_written`).
-/

namespace ImageLinker

/-! ## References of one instruction -/

namespace Instruction

/-- An instruction refers to no symbol and has the same bytes under all addresses, or its bytes end
in the address of one symbol, which the fixup finds behind the head. -/
theorem reference_cases (i : Instruction) :
    ((∀ start, i.fixup? start = none) ∧ ∀ address, i.bytesAt address = i.bytes) ∨
      ∃ id, (∀ start, i.fixup? start = some ⟨id, start + i.head.length⟩) ∧
        ∀ address, i.bytesAt address = i.head ++ leBytes addressSize (address id) := by
  cases hp : i.payload? with
  | none =>
    left
    exact ⟨fun start => by simp [fixup?, hp], fun address => by simp [bytesAt, bytes, hp]⟩
  | some v =>
    cases v with
    | integer width bits =>
      left
      refine ⟨fun start => by simp [fixup?, hp, Immediate.symbol?], fun address => ?_⟩
      simp [bytesAt, bytes, hp, Immediate.bytesAt]
    | float width bits =>
      left
      refine ⟨fun start => by simp [fixup?, hp, Immediate.symbol?], fun address => ?_⟩
      simp [bytesAt, bytes, hp, Immediate.bytesAt]
    | symbol id =>
      right
      refine ⟨id, fun start => by simp [fixup?, hp, Immediate.symbol?], fun address => ?_⟩
      simp [bytesAt, hp, Immediate.bytesAt]

/-- The address is the last thing in the bytes, so it fills what the head leaves. -/
theorem encodedSize_of_reference {i : Instruction} {id : SymbolId}
    (h : ∀ address, i.bytesAt address = i.head ++ leBytes addressSize (address id)) :
    i.encodedSize = i.head.length + addressSize := by
  have hlen := i.length_bytesAt fun _ => 0
  rw [h, List.length_append, length_leBytes] at hlen
  exact hlen.symm

end Instruction

/-! ## References of many instructions -/

/-- The fixups of instructions that stand one behind the other from `start` on. -/
def fixupsFrom (start : Nat) : List Instruction → List Fixup
  | [] => []
  | i :: is => (i.fixup? start).toList ++ fixupsFrom (start + i.encodedSize) is

theorem fixupsFrom_append (start : Nat) (is js : List Instruction) :
    fixupsFrom start (is ++ js) = fixupsFrom start is ++ fixupsFrom (start + codeSize is) js := by
  induction is generalizing start with
  | nil => simp [fixupsFrom]
  | cons i is ih => simp [fixupsFrom, ih, Nat.add_assoc]

theorem fixupsFrom_add (base start : Nat) (is : List Instruction) :
    fixupsFrom (start + base) is =
      (fixupsFrom start is).map fun f => { f with offset := f.offset + base } := by
  induction is generalizing start with
  | nil => rfl
  | cons i is ih =>
    have hrest : start + base + i.encodedSize = start + i.encodedSize + base := by omega
    rw [fixupsFrom, fixupsFrom, hrest, ih, List.map_append]
    congr 1
    rcases i.reference_cases with ⟨hnone, _⟩ | ⟨id, hsome, _⟩
    · simp [hnone]
    · simp only [hsome, Option.toList_some, List.map_cons, List.map_nil]
      rw [show start + base + i.head.length = start + i.head.length + base from by omega]

/-- A fixup lies behind an opcode byte and within the code. -/
theorem fixupsFrom_bounds {start : Nat} {is : List Instruction} {f : Fixup}
    (hf : f ∈ fixupsFrom start is) :
    start + 1 ≤ f.offset ∧ f.offset + addressSize ≤ start + codeSize is := by
  induction is generalizing start with
  | nil => simp [fixupsFrom] at hf
  | cons i is ih =>
    rw [codeSize_cons]
    rcases List.mem_append.mp hf with hhead | hrest
    · rcases i.reference_cases with ⟨hnone, _⟩ | ⟨id, hsome, hbytes⟩
      · simp [hnone] at hhead
      · have hsize := Instruction.encodedSize_of_reference hbytes
        have hpos : 0 < i.head.length := List.length_pos_iff.mpr i.head_ne_nil
        simp only [hsome, Option.toList_some, List.mem_singleton] at hhead
        subst hhead
        simp only []
        omega
    · have hbounds := ih hrest
      omega

/-- Two fixups never share a byte: between them there is at least the opcode byte of the second. -/
theorem fixupsFrom_pairwise (start : Nat) (is : List Instruction) :
    (fixupsFrom start is).Pairwise fun f g => f.offset + addressSize + 1 ≤ g.offset := by
  induction is generalizing start with
  | nil => exact List.Pairwise.nil
  | cons i is ih =>
    rw [fixupsFrom]
    refine List.pairwise_append.mpr ⟨?_, ih _, ?_⟩
    · cases i.fixup? start <;> simp
    · intro f hf g hg
      -- The first instruction ends with its address, and the fixups of the others come later.
      have hfirst : f ∈ fixupsFrom start [i] := by simpa [fixupsFrom] using hf
      have hf := fixupsFrom_bounds hfirst
      have hg := fixupsFrom_bounds hg
      simp only [codeSize_cons, codeSize_nil] at hf
      omega

/-! ## Arenas that grow -/

namespace Symbols

/-- What stands in code where a symbol is referred to: its address, or zero while it has none. -/
def valueOf (s : Symbols) (id : SymbolId) : Nat :=
  (s.addressOf? id).getD 0

/-- Whether a fixup still waits for the address of its symbol. -/
def isWaiting (s : Symbols) (f : Fixup) : Bool :=
  (s.addressOf? f.symbol).isNone

/-- Every address of `s` is an address of `t` as well. -/
def Extends (s t : Symbols) : Prop :=
  ∀ id a, s.addressOf? id = some a → t.addressOf? id = some a

theorem Extends.refl (s : Symbols) : s.Extends s :=
  fun _ _ h => h

@[simp] theorem addressOf?_empty (id : SymbolId) : ({} : Symbols).addressOf? id = none := rfl

@[simp] theorem valueOf_empty : ({} : Symbols).valueOf = fun _ => 0 := rfl

@[simp] theorem isWaiting_empty (f : Fixup) : ({} : Symbols).isWaiting f = true := rfl

theorem Extends.empty (s : Symbols) : ({} : Symbols).Extends s := by
  intro id a h
  simp at h

theorem get_eq_ok_iff {s : Symbols} {id : SymbolId} {symbol : Symbol} :
    s.get id = .ok symbol ↔ s.get? id = some symbol := by
  unfold get
  cases s.get? id <;> simp

end Symbols

/-! ## Serving fixups -/

theorem Code.overwrite_append (before old new after : List UInt8) (h : old.length = new.length) :
    Code.overwrite (before ++ old ++ after).toArray before.length new =
      (before ++ new ++ after).toArray := by
  have hback : before.length + new.length = (before ++ old).length := by
    rw [List.length_append, h]
  have hfits : before.length + new.length ≤ (before ++ old ++ after).toArray.size := by
    rw [List.size_toArray, List.length_append, ← hback]
    exact Nat.le_add_right _ _
  apply Array.toList_inj.mp
  rw [Code.toList_overwrite _ _ _ hfits, hback, List.drop_left, List.append_assoc before old after,
    List.take_left]

/-- An address is written over the eight bytes that the fixup points at. -/
theorem Fixup.apply_append (id : SymbolId) (address : Nat) (before old after : List UInt8)
    (hold : old.length = addressSize) :
    Fixup.apply ⟨id, before.length⟩ address (before ++ old ++ after).toArray =
      .ok (before ++ leBytes addressSize address ++ after).toArray := by
  have hfits : before.length + addressSize ≤ (before ++ old ++ after).toArray.size := by
    rw [List.size_toArray, List.length_append, List.length_append, hold]
    exact Nat.le_add_right _ _
  have hcode := Code.overwrite_append before old (leBytes addressSize address) after
    (by rw [hold, length_leBytes])
  simp only [apply, if_pos hfits, hcode]

theorem patchStep_of_address {symbols : Symbols} {f : Fixup} {a : Nat}
    (ha : symbols.addressOf? f.symbol = some a) (code : Code) (waiting : Array Fixup) :
    patchStep symbols (code, waiting) f = (f.apply a code).map fun code => (code, waiting) := by
  obtain ⟨symbol, hget, haddress⟩ := Option.bind_eq_some_iff.mp ha
  simp only [patchStep, Symbols.get_eq_ok_iff.mpr hget, bind, Except.bind, haddress]
  cases f.apply a code <;> rfl

theorem patchStep_of_waiting {symbols : Symbols} {f : Fixup}
    (hknown : (symbols.get? f.symbol).isSome) (ha : symbols.addressOf? f.symbol = none)
    (code : Code) (waiting : Array Fixup) :
    patchStep symbols (code, waiting) f = .ok (code, waiting.push f) := by
  obtain ⟨symbol, hget⟩ := Option.isSome_iff_exists.mp hknown
  have haddress : symbol.address = none := by simpa [Symbols.addressOf?, hget] using ha
  simp only [patchStep, Symbols.get_eq_ok_iff.mpr hget, bind, Except.bind, haddress]
  rfl

/-- Serving the fixup of one instruction, if it has one that waits, writes into the instruction what
`new` knows beyond `old`. -/
theorem foldlM_patchStep_instruction {old new : Symbols} (hgrow : old.Extends new)
    (i : Instruction) (before after : List UInt8) (waiting : Array Fixup)
    (hknown : ∀ f ∈ (i.fixup? before.length).toList, (new.get? f.symbol).isSome) :
    ((i.fixup? before.length).toList.filter old.isWaiting).foldlM (patchStep new)
        ((before ++ i.bytesAt old.valueOf ++ after).toArray, waiting) =
      .ok ((before ++ i.bytesAt new.valueOf ++ after).toArray,
        waiting ++ (i.fixup? before.length).toList.filter new.isWaiting) := by
  rcases i.reference_cases with ⟨hnone, hbytes⟩ | ⟨id, hsome, hbytes⟩
  · -- Without a reference, the bytes are the same under both arenas.
    simp [hnone, hbytes, pure, Except.pure]
  · simp only [hsome, hbytes, Option.toList_some] at hknown ⊢
    cases hold : old.addressOf? id with
    | some a =>
      -- The reference was written before and stays as it is.
      have hnew : new.addressOf? id = some a := hgrow id a hold
      simp [Symbols.isWaiting, Symbols.valueOf, hold, hnew, pure, Except.pure]
    | none =>
      cases hnew : new.addressOf? id with
      | some a =>
        -- The reference waited, and its address is known now.
        have happly := Fixup.apply_append id a (before ++ i.head) (leBytes addressSize 0) after
          (length_leBytes _ _)
        rw [List.length_append] at happly
        have hpatch := patchStep_of_address (f := ⟨id, before.length + i.head.length⟩) hnew
          (before ++ i.head ++ leBytes addressSize 0 ++ after).toArray waiting
        rw [happly] at hpatch
        simpa [Symbols.isWaiting, Symbols.valueOf, hold, hnew, Except.map] using hpatch
      | none =>
        -- The reference waits on.
        have hpatch := patchStep_of_waiting (hknown _ (List.mem_singleton.mpr rfl)) hnew
          (before ++ (i.head ++ leBytes addressSize 0) ++ after).toArray waiting
        simpa [Symbols.isWaiting, Symbols.valueOf, hold, hnew] using hpatch

/-- **Serving the fixups that wait.** Code whose references are written as far as `old` knows
addresses becomes code whose references are written as far as `new` does, and what waits under `new`
is put aside in order. Induction on the instructions; `before` is the code that was passed already
and `after` what the fixups do not reach. -/
theorem foldlM_patchStep_codeAt {old new : Symbols} (hgrow : old.Extends new)
    (is : List Instruction) (before after : List UInt8) (waiting : Array Fixup)
    (hknown : ∀ f ∈ fixupsFrom before.length is, (new.get? f.symbol).isSome) :
    ((fixupsFrom before.length is).filter old.isWaiting).foldlM (patchStep new)
        ((before ++ codeAt old.valueOf is ++ after).toArray, waiting) =
      .ok ((before ++ codeAt new.valueOf is ++ after).toArray,
        waiting ++ (fixupsFrom before.length is).filter new.isWaiting) := by
  induction is generalizing before waiting with
  | nil => simp [fixupsFrom, pure, Except.pure]
  | cons i is ih =>
    have hlen : (before ++ i.bytesAt new.valueOf).length = before.length + i.encodedSize := by
      rw [List.length_append, Instruction.length_bytesAt]
    have hfirst := foldlM_patchStep_instruction hgrow i before (codeAt old.valueOf is ++ after)
      waiting fun f hf => hknown f (List.mem_append_left _ hf)
    have hrest := ih (before ++ i.bytesAt new.valueOf)
      (waiting ++ (i.fixup? before.length).toList.filter new.isWaiting)
    rw [hlen] at hrest
    have hrest := hrest fun f hf => hknown f (List.mem_append_right _ hf)
    simp only [List.append_assoc] at hfirst hrest
    rw [fixupsFrom, List.filter_append, List.foldlM_append, codeAt_cons, codeAt_cons]
    simp only [List.append_assoc, hfirst, bind, Except.bind, hrest, List.filter_append]
    congr 2
    exact Array.ext' (by simp)

/-- What `patch` makes of an image: the first part is written as far as `old` knows addresses, the
part behind it as far as `new` does, and afterwards both are written as far as `new` does. -/
theorem patch_codeAt {old new : Symbols} (hgrow : old.Extends new) (is js : List Instruction)
    (hknown : ∀ f ∈ fixupsFrom 0 (is ++ js), (new.get? f.symbol).isSome) :
    patch new (codeAt old.valueOf is ++ codeAt new.valueOf js).toArray
        ((fixupsFrom 0 is).filter old.isWaiting ++
          (fixupsFrom (codeSize is) js).filter new.isWaiting) =
      .ok ((codeAt new.valueOf (is ++ js)).toArray,
        (fixupsFrom 0 (is ++ js)).filter new.isWaiting) := by
  rw [fixupsFrom_append, Nat.zero_add] at hknown
  have hfirst := foldlM_patchStep_codeAt hgrow is [] (codeAt new.valueOf js) #[]
    fun f hf => hknown f (List.mem_append_left _ hf)
  have hsecond := foldlM_patchStep_codeAt (Symbols.Extends.refl new) js
    (codeAt new.valueOf is) [] ((#[] : Array Fixup) ++ (fixupsFrom 0 is).filter new.isWaiting)
  rw [length_codeAt] at hsecond
  have hsecond := hsecond fun f hf => hknown f (List.mem_append_right _ hf)
  simp only [List.length_nil, List.nil_append, List.append_nil] at hfirst hsecond
  simp only [patch, List.foldlM_append, hfirst, hsecond, bind, Except.bind]
  rw [codeAt_append, fixupsFrom_append, Nat.zero_add, List.filter_append]
  simp [pure, Except.pure]

/-- What `patch` makes of code that was never linked: all of its fixups wait. -/
theorem patch_written (symbols : Symbols) (is : List Instruction)
    (hknown : ∀ f ∈ fixupsFrom 0 is, (symbols.get? f.symbol).isSome) :
    patch symbols (codeAt (fun _ => 0) is).toArray (fixupsFrom 0 is) =
      .ok ((codeAt symbols.valueOf is).toArray, (fixupsFrom 0 is).filter symbols.isWaiting) := by
  have hall : (fixupsFrom 0 is).filter ({} : Symbols).isWaiting = fixupsFrom 0 is :=
    List.filter_eq_self.mpr fun f _ => Symbols.isWaiting_empty f
  have hpatch := patch_codeAt (Symbols.Extends.empty symbols) is [] (by simpa using hknown)
  simpa [hall, fixupsFrom] using hpatch

end ImageLinker
