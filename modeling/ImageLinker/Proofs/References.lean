import ImageLinker.Image
import ImageLinker.Proofs.History

/-!
# References in an image

At every moment, each reference in the image of a builder is in one of two states: it is written,
because the address of its symbol is known, or it waits. This module says so in terms of the blocks
that were linked, and of nothing but their bytes and fixups.

* `Session.code_eq_linkedCode`: an image that grew link by link is what one pass over all linked
  blocks makes of the addresses known by now.
* `Session.pending_exact`: what waits is what that pass would leave open, in the order of the image,
  and it is what completing the image reports.

Both follow from what a builder holds (`Session.holds_after`); the lemmas in between turn lists of
instructions back into blocks.
-/

namespace ImageLinker

/-- The references of linked functions at image addresses. Every block stands right behind the
blocks that were linked before it. -/
def referencesOf (ls : List LinkedFunction) : List Fixup :=
  (placedFrom 0 (blocksOf ls)).flatMap fun p =>
    p.2.fixups.toList.map fun f => { f with offset := f.offset + p.1 }

theorem mem_referencesOf {ls : List LinkedFunction} {f : Fixup} :
    f ∈ referencesOf ls ↔
      ∃ p ∈ placedFrom 0 (blocksOf ls), ∃ g ∈ p.2.fixups, f = ⟨g.symbol, g.offset + p.1⟩ := by
  simp [referencesOf, eq_comm]

/-- The symbols of these references are those that the functions refer to. -/
theorem exists_mem_referencesOf {ls : List LinkedFunction} {id : SymbolId} :
    (∃ f ∈ referencesOf ls, f.symbol = id) ↔ ∃ l ∈ ls, ∃ g ∈ l.value.fixups, g.symbol = id := by
  constructor
  · rintro ⟨f, hf, rfl⟩
    obtain ⟨p, hp, g, hg, rfl⟩ := mem_referencesOf.mp hf
    obtain ⟨l, hl, hblock⟩ := List.mem_flatMap.mp (placedFrom_bounds hp).1
    exact ⟨l, hl, g, List.mem_flatMap.mpr ⟨p.2, hblock, Array.mem_toList_iff.mpr hg⟩, rfl⟩
  · rintro ⟨l, hl, g, hg, rfl⟩
    obtain ⟨block, hblock, hg⟩ := List.mem_flatMap.mp hg
    have hmem : block ∈ blocksOf ls := List.mem_flatMap.mpr ⟨l, hl, hblock⟩
    obtain ⟨a, ha⟩ := exists_mem_placedFrom 0 hmem
    exact ⟨_, mem_referencesOf.mpr ⟨_, ha, g, Array.mem_toList_iff.mp hg, rfl⟩, rfl⟩

theorem referencesOf_of_holds {ls : List LinkedFunction} (h : ∀ l ∈ ls, l.value.Holds l.text) :
    referencesOf ls = fixupsFrom 0 (instructionsOf ls) := by
  rw [referencesOf, placedFrom_fixups (forall₂_blocksOf h), flatten_flatMap_text]

namespace Builder.Holds

variable {b : Builder} {ls : List LinkedFunction}

theorem referencesOf_eq (h : b.Holds ls) : referencesOf ls = fixupsFrom 0 (instructionsOf ls) :=
  referencesOf_of_holds h.texts

theorem code_eq_blocks (h : b.Holds ls) :
    b.code.toList = (blocksOf ls).flatMap (Block.linkedCode b.symbols) := by
  rw [flatMap_linkedCode_of_holds (forall₂_blocksOf h.texts), flatten_flatMap_text, h.code]

theorem pending_eq_references (h : b.Holds ls) :
    b.pending = (referencesOf ls).filter b.symbols.isWaiting := by
  rw [h.referencesOf_eq, h.pending]

/-! ## Completing an image -/

/-- Everything that waits is reported with the name of its symbol. Here it matters that no reference
leads out of the arena: one that did would not be reported. -/
theorem unresolved_eq (h : b.Holds ls) :
    List.Forall₂ (fun r f => r.offset = f.offset ∧
      (b.symbols.get? f.symbol).map Symbol.name = some r.symbol) b.unresolved b.pending := by
  have hknown : ∀ f ∈ b.pending, (b.symbols.get? f.symbol).isSome := by
    intro f hf
    rw [h.pending] at hf
    exact h.known f (List.mem_of_mem_filter hf)
  unfold unresolved
  generalize b.pending = pending at hknown ⊢
  induction pending with
  | nil => exact .nil
  | cons f pending ih =>
    obtain ⟨symbol, hsymbol⟩ := Option.isSome_iff_exists.mp (hknown f List.mem_cons_self)
    have hrest := ih fun g hg => hknown g (List.mem_cons_of_mem _ hg)
    simp only [List.filterMap_cons, hsymbol, Option.map_some]
    exact .cons ⟨rfl, by rw [hsymbol]; rfl⟩ hrest

/-- An image is complete as soon as nothing waits. -/
theorem finish_eq (h : b.Holds ls) :
    b.finish =
      if b.pending = [] then
        .ok { code := b.code, symbols := b.symbols, names := b.names, globals := b.globals }
      else .error (.unresolvedReferences b.unresolved) := by
  have hlength := h.unresolved_eq.length_eq
  have hempty : b.unresolved.isEmpty ↔ b.pending = [] := by
    rw [List.isEmpty_iff_length_eq_zero, hlength, List.length_eq_zero_iff]
  unfold finish
  simp only [hempty]

theorem exists_finish_iff (h : b.Holds ls) : (∃ image, b.finish = .ok image) ↔ b.pending = [] := by
  rw [h.finish_eq]
  split
  · rename_i hempty
    simp [hempty]
  · rename_i hwaits
    simp [hwaits]

theorem finish_eq_ok (h : b.Holds ls) {image : Image} (himage : b.finish = .ok image) :
    b.pending = [] ∧
      image = { code := b.code, symbols := b.symbols, names := b.names, globals := b.globals } := by
  have hdone := h.exists_finish_iff.mp ⟨image, himage⟩
  rw [h.finish_eq, if_pos hdone] at himage
  cases himage
  exact ⟨hdone, rfl⟩

/-- Nothing waits if and only if every symbol that is referred to has an address. -/
theorem pending_eq_nil_iff (h : b.Holds ls) :
    b.pending = [] ↔
      ∀ l ∈ ls, ∀ f ∈ l.value.fixups, (b.symbols.addressOf? f.symbol).isSome := by
  rw [h.pending_eq_references, List.filter_eq_nil_iff]
  constructor
  · intro hnone l hl g hg
    obtain ⟨f, hf, hid⟩ := exists_mem_referencesOf.mpr ⟨l, hl, g, hg, rfl⟩
    have hwritten := hnone f hf
    rw [← hid]
    simpa [Symbols.isWaiting, Option.isSome_iff_ne_none] using hwritten
  · intro hall f hf
    obtain ⟨l, hl, g, hg, hid⟩ := exists_mem_referencesOf.mp ⟨f, hf, rfl⟩
    have hsome := hall l hl g hg
    rw [hid] at hsome
    simpa [Symbols.isWaiting, Option.isSome_iff_ne_none] using hsome

end Builder.Holds

/-! ## Every session -/

/-- What is to be said about the references that wait, in terms of the functions that were linked:
none is lost, doubled or misreported. -/
structure Builder.PendingExact (b : Builder) (ls : List LinkedFunction) : Prop where
  /-- The blocks stand one behind the other, at the addresses of their symbols. -/
  placed : ∀ p ∈ placedFrom 0 (blocksOf ls), b.symbols.addressOf? p.2.symbol = some p.1
  /-- What waits are the fixups of these blocks whose symbols have no address. -/
  mem_iff : ∀ f, f ∈ b.pending ↔
    ∃ p ∈ placedFrom 0 (blocksOf ls), ∃ g ∈ p.2.fixups,
      f = ⟨g.symbol, g.offset + p.1⟩ ∧ b.symbols.addressOf? g.symbol = none
  /-- Each is there once, in increasing order, and between two there is at least an opcode byte. -/
  increasing : b.pending.Pairwise fun f g => f.offset + 9 ≤ g.offset
  within : ∀ f ∈ b.pending, f.offset + addressSize ≤ b.code.size
  /-- The image can be completed if and only if every symbol that is referred to has an address. -/
  finish_ok_iff : (∃ image, b.finish = .ok image) ↔
    ∀ l ∈ ls, ∀ f ∈ l.value.fixups, (b.symbols.addressOf? f.symbol).isSome
  /-- Otherwise what waits is reported, by name and in the same order. -/
  finish_error : (¬∃ image, b.finish = .ok image) →
    ∃ references, b.finish = .error (.unresolvedReferences references) ∧
      List.Forall₂ (fun r f => r.offset = f.offset ∧
        (b.symbols.get? f.symbol).map Symbol.name = some r.symbol) references b.pending

namespace Session

/-- A session with references in all directions. A copy of a function is written on and linked in
its place, after which the function itself is refused. The copy jumps within itself and calls a
function that is linked after it; that one jumps back, and refers to a third that is not linked. -/
def mutualJumps : List Command :=
  [ .newBuilder "b" initialCapacity,
    .newFunction "b" "main" "main",
    .newFunction "b" "helper" "helper",
    .newFunction "b" "late" "late",
    .appendBlock "b" "main" "entry",
    .appendBlock "b" "main" "loop",
    .appendBlock "b" "helper" "body",
    .emit "main" "entry" (.word .call (some (.symbol ⟨1⟩))) 1,
    .copyFunction "main" "copy",
    .emit "main" "loop" (.nullary .stop) 1,
    .emit "copy" "loop" (.argument .add (.immediate (.integer .bits16 0x12345))) 1,
    .emit "copy" "loop" (.word .jmp (some (.symbol ⟨4⟩))) 1,
    .link "b" "copy",
    .link "b" "main",
    .emit "helper" "body" (.argument .push (.immediate (.symbol ⟨2⟩))) 1,
    .emit "helper" "body" (.word .jmp (some (.symbol ⟨3⟩))) 1,
    .link "b" "helper" ]

/-- **No reference is lost.** In every session, what waits in an image is exactly what is open. -/
theorem pending_exact (cs : List Command) (slot : String) (b : Builder)
    (hb : (after cs).workspace.builders.get? slot = some b) :
    b.PendingExact ((after cs).linkedInto b.id) := by
  have h := holds_after cs hb
  have hcomplete := h.exists_finish_iff
  constructor
  case placed => exact h.placed
  case mem_iff =>
    intro f
    rw [h.pending_eq_references, List.mem_filter, mem_referencesOf]
    constructor
    · rintro ⟨⟨p, hp, g, hg, rfl⟩, hwaits⟩
      exact ⟨p, hp, g, hg, rfl, Option.isNone_iff_eq_none.mp hwaits⟩
    · rintro ⟨p, hp, g, hg, rfl, hnone⟩
      exact ⟨⟨p, hp, g, hg, rfl⟩, Option.isNone_iff_eq_none.mpr hnone⟩
  case increasing =>
    rw [h.pending]
    exact (fixupsFrom_pairwise 0 _).filter _
  case within =>
    intro f hf
    rw [h.pending] at hf
    have hend := (fixupsFrom_bounds (List.mem_of_mem_filter hf)).2
    rwa [← h.size_code, Nat.zero_add] at hend
  case finish_ok_iff => rw [hcomplete, h.pending_eq_nil_iff]
  case finish_error =>
    rw [hcomplete]
    intro hwaits
    rw [h.finish_eq, if_neg hwaits]
    exact ⟨b.unresolved, rfl, h.unresolved_eq⟩

/-- One reference waits, behind the opcode byte of the last function that was linked. -/
theorem pending_mutualJumps : ∃ b, (after mutualJumps).workspace.builders.get? "b" = some b ∧
    b.pending = [⟨⟨2⟩, 23⟩] ∧
    b.finish = .error (.unresolvedReferences [⟨"late", 23⟩]) ∧
    b.PendingExact ((after mutualJumps).linkedInto b.id) := by
  obtain ⟨b, hb⟩ : ∃ b, (after mutualJumps).workspace.builders.get? "b" = some b :=
    Option.isSome_iff_exists.mp (by decide +kernel)
  have hwaits : ((after mutualJumps).workspace.builders.get? "b").map
      (fun b => (b.pending, b.unresolved)) = some ([⟨⟨2⟩, 23⟩], [⟨"late", 23⟩]) := by
    decide +kernel
  rw [hb, Option.map_some, Option.some.injEq, Prod.mk.injEq] at hwaits
  refine ⟨b, hb, hwaits.1, ?_, pending_exact mutualJumps "b" b hb⟩
  rw [Builder.finish, hwaits.2]
  rfl

end Session

end ImageLinker
