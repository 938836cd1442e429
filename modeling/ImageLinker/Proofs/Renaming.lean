import ImageLinker.Proofs.Safety
import Mathlib.Data.Set.Operations

/-!
# Images up to the numbers of symbols

Symbols get their numbers when functions and blocks are created, and addresses when functions are
linked. The numbers depend on the order of creation; the image does not. Two builders into which the
same functions were linked in the same order have the same image, where "the same" leaves out the
numbers: it is enough that some renaming leads from the functions of the one to those of the other.

No run is followed here step by step. What a builder holds is determined by the functions that were
linked into it (`Builder.Holds`, `Builder.Placed`), so that two builders are compared by comparing
these two lists.

* `placesOf`: all addresses and sizes in an image, read off the functions that were linked
  (`Builder.Placed.placeOf?_eq_some_iff`).
* `Function.RenamesTo`: two functions that differ in the numbers of symbols only. Layout and
  references follow a renaming (`placesOf_rename`, `referencesOf_rename`).
* `Builder.Renamed`, `Builder.renamed_of_linked`: what two such builders have in common.
* `Session.image_of_links`: the same at every moment of two sessions.
-/

namespace ImageLinker

/-! ## Places -/

namespace Symbols

/-- The address and the size of a symbol that has an address. -/
def placeOf? (s : Symbols) (id : SymbolId) : Option (Nat × Nat) :=
  (s.get? id).bind fun symbol => symbol.address.map fun a => (a, symbol.size)

variable {s : Symbols} {id : SymbolId} {start stop : Nat}

theorem placeOf?_eq_some_iff {a n : Nat} :
    s.placeOf? id = some (a, n) ↔
      s.addressOf? id = some a ∧ (s.get? id).map Symbol.size = some n := by
  unfold placeOf? addressOf?
  cases s.get? id with
  | none => simp
  | some symbol => simp

theorem map_fst_placeOf? (s : Symbols) (id : SymbolId) :
    (s.placeOf? id).map Prod.fst = s.addressOf? id := by
  unfold placeOf? addressOf?
  cases s.get? id with
  | none => rfl
  | some symbol => cases h : symbol.address <;> simp [h]

theorem Tile.stop_eq {bs : List Block} (h : s.Tile start stop (bs.map Block.symbol))
    (hsized : ∀ b ∈ bs, (s.get? b.symbol).map Symbol.size = some b.size) :
    stop = start + (bs.map Block.size).sum := by
  induction bs generalizing start with
  | nil => exact Eq.symm h
  | cons b bs ih =>
    obtain ⟨symbol, hsymbol, -, hrest⟩ := h
    have hsize := hsized b List.mem_cons_self
    rw [hsymbol, Option.map_some, Option.some.injEq] at hsize
    have hstop := ih hrest fun c hc => hsized c (List.mem_cons_of_mem _ hc)
    rw [hstop, hsize, List.map_cons, List.sum_cons]
    omega

end Symbols

/-- The symbols of functions with their addresses and sizes, one function behind the other. -/
def functionPlaces (start : Nat) : List LinkedFunction → List (SymbolId × Nat × Nat)
  | [] => []
  | l :: ls => (l.value.symbol, start, l.value.size) :: functionPlaces (start + l.value.size) ls

/-- The symbols of linked functions and of their blocks, with their addresses and sizes. -/
def placesOf (ls : List LinkedFunction) : List (SymbolId × Nat × Nat) :=
  functionPlaces 0 ls ++ (placedFrom 0 (blocksOf ls)).map fun p => (p.2.symbol, p.1, p.2.size)

theorem exists_mem_functionPlaces (start : Nat) {ls : List LinkedFunction} {l : LinkedFunction}
    (h : l ∈ ls) : ∃ p, (l.value.symbol, p) ∈ functionPlaces start ls := by
  induction ls generalizing start with
  | nil => cases h
  | cons m ls ih =>
    rcases List.mem_cons.mp h with rfl | h
    · exact ⟨_, List.mem_cons_self⟩
    · obtain ⟨p, hp⟩ := ih (start + m.value.size) h
      exact ⟨p, List.mem_cons_of_mem _ hp⟩

theorem Symbols.Tile.placeOf?_eq {s : Symbols} {start stop : Nat} {ls : List LinkedFunction}
    (h : s.Tile start stop (ls.map fun l => l.value.symbol))
    (hsized : ∀ l ∈ ls, (s.get? l.value.symbol).map Symbol.size = some l.value.size)
    {p : SymbolId × Nat × Nat} (hp : p ∈ functionPlaces start ls) : s.placeOf? p.1 = some p.2 := by
  induction ls generalizing start with
  | nil => cases hp
  | cons l ls ih =>
    obtain ⟨symbol, hsymbol, haddress, hrest⟩ := h
    have hsize := hsized l List.mem_cons_self
    rw [hsymbol, Option.map_some, Option.some.injEq] at hsize
    rcases List.mem_cons.mp hp with rfl | hp
    · simp [placeOf?, hsymbol, haddress, hsize]
    · rw [hsize] at hrest
      exact ih hrest (fun m hm => hsized m (List.mem_cons_of_mem _ hm)) hp

namespace Builder.Placed

variable {b : Builder} {ls : List LinkedFunction}

theorem function_size (h : b.Placed ls) {l : LinkedFunction} (hl : l ∈ ls) :
    (b.symbols.get? l.value.symbol).map Symbol.size = some l.value.size := by
  obtain ⟨symbol, a, hsymbol, -, htile⟩ := h.blocks l hl
  -- The blocks fill the place of the function, so their sizes add up to its size.
  have hstop := htile.stop_eq fun block hblock =>
    h.sized l hl block (Array.mem_toList_iff.mp hblock)
  rw [← Function.size_eq] at hstop
  rw [hsymbol, Option.map_some, Option.some.injEq]
  omega

theorem placeOf?_of_mem (h : b.Placed ls) (hholds : b.Holds ls) {p : SymbolId × Nat × Nat}
    (hp : p ∈ placesOf ls) : b.symbols.placeOf? p.1 = some p.2 := by
  rcases List.mem_append.mp hp with hp | hp
  · exact h.functions.placeOf?_eq (fun l hl => h.function_size hl) hp
  · obtain ⟨q, hq, rfl⟩ := List.mem_map.mp hp
    obtain ⟨l, hl, hblock⟩ := List.mem_flatMap.mp (placedFrom_bounds hq).1
    exact Symbols.placeOf?_eq_some_iff.mpr
      ⟨hholds.placed q hq, h.sized l hl q.2 (Array.mem_toList_iff.mp hblock)⟩

/-- **The places are known from the history.** Nothing else has an address. -/
theorem placeOf?_eq_some_iff (h : b.Placed ls) (hholds : b.Holds ls) {id : SymbolId}
    {p : Nat × Nat} : b.symbols.placeOf? id = some p ↔ (id, p) ∈ placesOf ls := by
  constructor
  · intro hplace
    have hsome : (b.symbols.addressOf? id).isSome := by
      rw [← Symbols.map_fst_placeOf?, hplace]
      rfl
    -- The symbol is in the list with some place, which is then the one that it has.
    have hmem : ∃ q, (id, q) ∈ placesOf ls := by
      obtain ⟨l, hl, rfl | ⟨block, hblock, rfl⟩⟩ := (h.resolved id).mp hsome
      · obtain ⟨q, hq⟩ := exists_mem_functionPlaces 0 hl
        exact ⟨q, List.mem_append_left _ hq⟩
      · have hmem : block ∈ blocksOf ls :=
          List.mem_flatMap.mpr ⟨l, hl, Array.mem_toList_iff.mpr hblock⟩
        obtain ⟨a, ha⟩ := exists_mem_placedFrom 0 hmem
        exact ⟨_, List.mem_append_right _ (List.mem_map.mpr ⟨_, ha, rfl⟩)⟩
    obtain ⟨q, hq⟩ := hmem
    have hq' := h.placeOf?_of_mem hholds hq
    rw [hplace, Option.some.injEq] at hq'
    rw [hq']
    exact hq
  · exact h.placeOf?_of_mem hholds

end Builder.Placed

/-! ## Renaming -/

def Fixup.rename (σ : SymbolId → SymbolId) (f : Fixup) : Fixup :=
  { f with symbol := σ f.symbol }

def Block.rename (σ : SymbolId → SymbolId) (b : Block) : Block :=
  { b with symbol := σ b.symbol, fixups := b.fixups.map (Fixup.rename σ) }

@[simp] theorem Block.size_rename (σ : SymbolId → SymbolId) (b : Block) :
    (b.rename σ).size = b.size := rfl

/-- Two functions of the same code that refer to the same symbols at the same places, where the
symbols have other numbers in the one than in the other. Their names do not matter. -/
structure Function.RenamesTo (σ : SymbolId → SymbolId) (f g : Function) : Prop where
  symbol : g.symbol = σ f.symbol
  blocks : g.blocks = f.blocks.map (Block.rename σ)

instance (σ : SymbolId → SymbolId) (f g : Function) : Decidable (f.RenamesTo σ g) :=
  decidable_of_iff (g.symbol = σ f.symbol ∧ g.blocks = f.blocks.map (Block.rename σ))
    ⟨fun h => ⟨h.1, h.2⟩, fun h => ⟨h.symbol, h.blocks⟩⟩

theorem placedFrom_rename (σ : SymbolId → SymbolId) (start : Nat) (bs : List Block) :
    placedFrom start (bs.map (Block.rename σ)) =
      (placedFrom start bs).map fun p => (p.1, p.2.rename σ) := by
  induction bs generalizing start with
  | nil => rfl
  | cons b bs ih => simp [placedFrom, ih]

/-- A block has the same linked code after a renaming, if the symbols that it refers to have the
same addresses. -/
theorem Block.linkedCode_rename {σ : SymbolId → SymbolId} {s t : Symbols} {b : Block}
    (h : ∀ f ∈ b.fixups, t.addressOf? (σ f.symbol) = s.addressOf? f.symbol) :
    (b.rename σ).linkedCode t = b.linkedCode s := by
  simp only [linkedCode, rename, Array.toList_map, List.foldl_map]
  refine congrArg Array.toList (List.foldl_ext _ _ _ fun code f hf => ?_)
  have haddress := h f (Array.mem_toList_iff.mp hf)
  simp only [Fixup.rename, Symbols.referenceBytes, haddress]

section Histories

variable {σ : SymbolId → SymbolId} {ls ms : List LinkedFunction}

theorem blocksOf_rename (h : List.Forall₂ (fun l m => l.value.RenamesTo σ m.value) ls ms) :
    blocksOf ms = (blocksOf ls).map (Block.rename σ) := by
  induction h with
  | nil => rfl
  | cons hlm _ ih =>
    simp only [blocksOf, List.flatMap_cons, List.map_append] at ih ⊢
    rw [ih, hlm.blocks, Array.toList_map]

theorem Function.RenamesTo.size_eq {f g : Function} (h : f.RenamesTo σ g) : g.size = f.size := by
  rw [Function.size_eq, Function.size_eq, h.blocks, Array.toList_map, List.map_map]
  rfl

theorem functionPlaces_rename (h : List.Forall₂ (fun l m => l.value.RenamesTo σ m.value) ls ms)
    (start : Nat) :
    functionPlaces start ms = (functionPlaces start ls).map fun p => (σ p.1, p.2) := by
  induction h generalizing start with
  | nil => rfl
  | cons hlm _ ih => simp only [functionPlaces, List.map_cons, hlm.symbol, hlm.size_eq, ih]

theorem placesOf_rename (h : List.Forall₂ (fun l m => l.value.RenamesTo σ m.value) ls ms) :
    placesOf ms = (placesOf ls).map fun p => (σ p.1, p.2) := by
  simp only [placesOf, functionPlaces_rename h, blocksOf_rename h, placedFrom_rename,
    List.map_append, List.map_map]
  rfl

theorem referencesOf_rename (h : List.Forall₂ (fun l m => l.value.RenamesTo σ m.value) ls ms) :
    referencesOf ms = (referencesOf ls).map (Fixup.rename σ) := by
  simp only [referencesOf, blocksOf_rename h, placedFrom_rename, List.flatMap_map,
    List.map_flatMap, Block.rename, Array.toList_map, List.map_map]
  rfl

end Histories

/-! ## Two builders -/

namespace Builder

/-- What a builder has in common with one that has other numbers for the symbols of `arena`. -/
structure Renamed (σ : SymbolId → SymbolId) (arena : Symbols) (b c : Builder) : Prop where
  code : c.code = b.code
  /-- Both symbols have the same address and size, or neither has an address. -/
  place : ∀ id, (arena.get? id).isSome → c.symbols.placeOf? (σ id) = b.symbols.placeOf? id
  pending : c.pending = b.pending.map (Fixup.rename σ)
  offsets : c.unresolved.map UnresolvedReference.offset =
    b.unresolved.map UnresolvedReference.offset
  finish_iff : (∃ image, c.finish = .ok image) ↔ ∃ image, b.finish = .ok image
  image : ∀ image image', b.finish = .ok image → c.finish = .ok image' → image'.code = image.code

variable {σ : SymbolId → SymbolId} {b c : Builder} {ls ms : List LinkedFunction} {arena : Symbols}

theorem Holds.known_of_block (h : b.Holds ls) {block : Block} (hblock : block ∈ blocksOf ls)
    {f : Fixup} (hf : f ∈ block.fixups) : (b.symbols.get? f.symbol).isSome := by
  obtain ⟨a, ha⟩ := exists_mem_placedFrom 0 hblock
  have hmem := mem_referencesOf.mpr ⟨_, ha, f, hf, rfl⟩
  rw [h.referencesOf_eq] at hmem
  exact h.known ⟨f.symbol, f.offset + a⟩ hmem

theorem Holds.offsets_unresolved (h : b.Holds ls) :
    b.unresolved.map UnresolvedReference.offset = b.pending.map Fixup.offset := by
  have hpairs := h.unresolved_eq
  generalize b.unresolved = references, b.pending = pending at hpairs
  induction hpairs with
  | nil => rfl
  | cons hrf _ ih => rw [List.map_cons, List.map_cons, hrf.1, ih]

/-- A symbol that was linked is found again after a renaming, and no other symbol can stand in its
place. Only here the renaming has to be injective. -/
theorem placeOf?_renamed (hb : b.Holds ls) (hbplaced : b.Placed ls) (hc : c.Holds ms)
    (hcplaced : c.Placed ms) (h : List.Forall₂ (fun l m => l.value.RenamesTo σ m.value) ls ms)
    (hgrows : b.symbols.Grows arena) (hσ : Set.InjOn σ {id | (arena.get? id).isSome})
    {id : SymbolId} (hid : (arena.get? id).isSome) :
    c.symbols.placeOf? (σ id) = b.symbols.placeOf? id := by
  refine Option.ext fun p => ?_
  rw [hcplaced.placeOf?_eq_some_iff hc, hbplaced.placeOf?_eq_some_iff hb, placesOf_rename h,
    List.mem_map]
  constructor
  · rintro ⟨⟨other, q⟩, hmem, heq⟩
    rw [Prod.mk.injEq] at heq
    obtain ⟨hsame, rfl⟩ := heq
    -- Since `other` was linked, it is in the arena as well, where no two symbols become one.
    have hplace := (hbplaced.placeOf?_eq_some_iff hb).mpr hmem
    obtain ⟨symbol, hsymbol, -⟩ := Option.bind_eq_some_iff.mp hplace
    have hother : (arena.get? other).isSome := hgrows.isSome (by rw [hsymbol]; rfl)
    rw [← hσ hother hid hsame]
    exact hmem
  · exact fun hmem => ⟨(id, p), hmem, rfl⟩

/-- **An image is made by links.** Two builders hold the same image if the functions that were
linked into the one are those that were linked into the other, up to a renaming that keeps the
symbols of the first apart. -/
theorem renamed_of_linked (hb : b.Holds ls) (hbplaced : b.Placed ls) (hc : c.Holds ms)
    (hcplaced : c.Placed ms) (h : List.Forall₂ (fun l m => l.value.RenamesTo σ m.value) ls ms)
    (hgrows : b.symbols.Grows arena) (hσ : Set.InjOn σ {id | (arena.get? id).isSome}) :
    b.Renamed σ arena c := by
  have hplace : ∀ id, (arena.get? id).isSome →
      c.symbols.placeOf? (σ id) = b.symbols.placeOf? id := fun _ hid =>
    placeOf?_renamed hb hbplaced hc hcplaced h hgrows hσ hid
  have haddress : ∀ id, (b.symbols.get? id).isSome →
      c.symbols.addressOf? (σ id) = b.symbols.addressOf? id := by
    intro id hid
    rw [← Symbols.map_fst_placeOf?, hplace id (hgrows.isSome hid), Symbols.map_fst_placeOf?]
  have hcode : c.code = b.code := by
    apply Array.ext'
    rw [hc.code_eq_blocks, hb.code_eq_blocks, blocksOf_rename h, List.flatMap_map]
    -- Block by block, since all that a linked block refers to is in the arena.
    refine List.flatMap_congr fun block hblock => ?_
    exact Block.linkedCode_rename fun f hf => haddress _ (hb.known_of_block hblock hf)
  have hpending : c.pending = b.pending.map (Fixup.rename σ) := by
    rw [hc.pending_eq_references, hb.pending_eq_references, referencesOf_rename h, List.filter_map]
    refine congrArg (List.map _) (List.filter_congr fun f hf => ?_)
    rw [hb.referencesOf_eq] at hf
    exact congrArg Option.isNone (haddress _ (hb.known f hf))
  constructor
  case code => exact hcode
  case place => exact hplace
  case pending => exact hpending
  case offsets =>
    rw [hc.offsets_unresolved, hb.offsets_unresolved, hpending, List.map_map]
    rfl
  case finish_iff => rw [hc.exists_finish_iff, hb.exists_finish_iff, hpending, List.map_eq_nil_iff]
  case image =>
    intro image image' himage himage'
    rw [(hb.finish_eq_ok himage).2, (hc.finish_eq_ok himage').2]
    exact hcode

end Builder

/-! ## Two sessions -/

namespace Session

variable {s s' : Session}

/-- What was linked stays linked, in the same order. -/
theorem Change.linked_mono (h : Change s s') : s.linked <+: s'.linked := by
  cases h with
  | linked journal hb hf h => exact List.prefix_append _ _
  | _ => exact List.prefix_rfl

theorem linkedInto_mono (cs cs' : List Command) (id : BuilderId) :
    (after cs).linkedInto id <+: (after (cs ++ cs')).linkedInto id := by
  have hrun : ∀ s : Session, s.linked <+: (cs'.foldl step s).linked := by
    induction cs' with
    | nil => exact fun s => List.prefix_rfl
    | cons c cs' ih => exact fun s => (step_change s c).linked_mono.trans (ih _)
  rw [after, after, List.foldl_append]
  exact (hrun _).filter _

/-- **The image depends on the links only.** In two sessions, let the functions that were linked
into a builder correspond one by one, up to a renaming that keeps the symbols of the first builder
apart. Then at all moments at which equally many of them were linked, the two images are the same,
symbols that correspond have the same address and size, references wait at the same offsets, and
both images can be completed or neither can. So it does not matter in what order functions, blocks
and instructions were made, what else was made, nor which of two functions was linked when the other
was written. -/
theorem image_of_links (cs₁ cs₂ : List Command) (slot₁ slot₂ : String) (b₁ : Builder)
    (id₂ : BuilderId) (σ : SymbolId → SymbolId)
    (hb₁ : (after cs₁).workspace.builders.get? slot₁ = some b₁)
    (hσ : Set.InjOn σ {id | (b₁.symbols.get? id).isSome})
    (hlinked : List.Forall₂ (fun l m => l.value.RenamesTo σ m.value)
      ((after cs₁).linkedInto b₁.id) ((after cs₂).linkedInto id₂))
    (done₁ done₂ : List Command) (c₁ c₂ : Builder) (hdone₁ : done₁ <+: cs₁) (hdone₂ : done₂ <+: cs₂)
    (hc₁ : (after done₁).workspace.builders.get? slot₁ = some c₁)
    (hc₂ : (after done₂).workspace.builders.get? slot₂ = some c₂)
    (hid₁ : b₁.id = c₁.id) (hid₂ : id₂ = c₂.id)
    (hcount : ((after done₁).linkedInto c₁.id).length = ((after done₂).linkedInto c₂.id).length) :
    c₁.Renamed σ b₁.symbols c₂ := by
  obtain ⟨rest₁, rfl⟩ := hdone₁
  obtain ⟨rest₂, rfl⟩ := hdone₂
  rw [hid₁, hid₂] at hlinked
  -- What was linked by then is the beginning of what was linked in the end.
  have hdone := List.forall₂_take ((after done₁).linkedInto c₁.id).length hlinked
  rw [← List.prefix_iff_eq_take.mp (linkedInto_mono done₁ rest₁ c₁.id), hcount,
    ← List.prefix_iff_eq_take.mp (linkedInto_mono done₂ rest₂ c₂.id)] at hdone
  exact Builder.renamed_of_linked (holds_after done₁ hc₁) (placed_after done₁ hc₁)
    (holds_after done₂ hc₂) (placed_after done₂ hc₂) hdone
    (later_append done₁ rest₁ hc₁ hb₁ hid₁).grows hσ

/-- The caller is created first, and it is linked before anything is written into the callee. -/
def callerFirst : List Command :=
  [ .newBuilder "b" initialCapacity,
    .newFunction "b" "main" "main",
    .appendBlock "b" "main" "entry",
    .newFunction "b" "helper" "helper",
    .appendBlock "b" "helper" "body",
    .emit "main" "entry" (.word .call (some (.symbol ⟨2⟩))) 1,
    .link "b" "main",
    .emit "helper" "body" (.word .jmp (some (.symbol ⟨1⟩))) 1,
    .link "b" "helper" ]

/-- The same functions under other names, the callee first, with one more function between them.
All is written before anything is linked. -/
def calleeFirst : List Command :=
  [ .newBuilder "a" initialCapacity,
    .newBuilder "b" initialCapacity,
    .newFunction "b" "callee" "helper",
    .appendBlock "b" "helper" "body",
    .newFunction "b" "spare" "spare",
    .newFunction "b" "caller" "main",
    .appendBlock "b" "main" "entry",
    .emit "helper" "body" (.word .jmp (some (.symbol ⟨4⟩))) 1,
    .emit "main" "entry" (.word .call (some (.symbol ⟨0⟩))) 1,
    .link "b" "main",
    .link "b" "helper" ]

/-- How the symbols of the one session are numbered in the other. -/
def calleeNumber (id : SymbolId) : SymbolId :=
  ⟨(id.index + 3) % 5⟩

/-- When the caller is linked, one reference waits in each image, for symbols of different numbers.
When the callee is linked too, the images are complete and equal. -/
theorem image_callerFirst : ∃ b₁ b₂ c₁ c₂,
    (after (callerFirst.take 7)).workspace.builders.get? "b" = some c₁ ∧
    (after (calleeFirst.take 10)).workspace.builders.get? "b" = some c₂ ∧
    (after callerFirst).workspace.builders.get? "b" = some b₁ ∧
    (after calleeFirst).workspace.builders.get? "b" = some b₂ ∧
    c₁.pending = [⟨⟨2⟩, 1⟩] ∧ c₂.pending = [⟨⟨0⟩, 1⟩] ∧ c₂.code = c₁.code ∧
    b₁.code = #[114, 9, 0, 0, 0, 0, 0, 0, 0, 107, 0, 0, 0, 0, 0, 0, 0, 0] ∧ b₂.code = b₁.code ∧
    b₂.symbols.placeOf? ⟨0⟩ = b₁.symbols.placeOf? ⟨2⟩ := by
  have hearly₁ : ((after (callerFirst.take 7)).workspace.builders.get? "b").map (fun b =>
      (b.id, b.pending)) = some (⟨0⟩, [⟨⟨2⟩, 1⟩]) := by
    decide +kernel
  have hearly₂ : ((after (calleeFirst.take 10)).workspace.builders.get? "b").map Builder.id =
      some ⟨1⟩ := by
    decide +kernel
  have hlate₁ : ((after callerFirst).workspace.builders.get? "b").map (fun b =>
      (b.id, b.symbols.size, b.code)) =
      some (⟨0⟩, 4, #[114, 9, 0, 0, 0, 0, 0, 0, 0, 107, 0, 0, 0, 0, 0, 0, 0, 0]) := by
    decide +kernel
  have hlate₂ : ((after calleeFirst).workspace.builders.get? "b").map Builder.id = some ⟨1⟩ := by
    decide +kernel
  have hcount : ((after (callerFirst.take 7)).linkedInto ⟨0⟩).length =
      ((after (calleeFirst.take 10)).linkedInto ⟨1⟩).length := by
    decide +kernel
  have hlinked : List.Forall₂ (fun l m => l.value.RenamesTo calleeNumber m.value)
      ((after callerFirst).linkedInto ⟨0⟩) ((after calleeFirst).linkedInto ⟨1⟩) := by
    decide +kernel
  obtain ⟨c₁, hc₁, hearly₁⟩ := Option.map_eq_some_iff.mp hearly₁
  obtain ⟨c₂, hc₂, hcid₂⟩ := Option.map_eq_some_iff.mp hearly₂
  obtain ⟨b₁, hb₁, hlate₁⟩ := Option.map_eq_some_iff.mp hlate₁
  obtain ⟨b₂, hb₂, hid₂⟩ := Option.map_eq_some_iff.mp hlate₂
  simp only [Prod.mk.injEq] at hearly₁ hlate₁
  obtain ⟨hcid₁, hpending⟩ := hearly₁
  obtain ⟨hid₁, hsize, hcode⟩ := hlate₁
  have hlt : ∀ id, (b₁.symbols.get? id).isSome ↔ id.index < 4 := by
    intro id
    rw [Option.isSome_iff_ne_none, ne_eq, Symbols.get?_eq_none_iff, hsize]
    omega
  -- Adding three modulo five keeps five numbers apart, of which the first arena has four.
  have hσ : Set.InjOn calleeNumber {id | (b₁.symbols.get? id).isSome} := by
    rintro ⟨i⟩ hi ⟨j⟩ hj heq
    have hi' : i < 4 := (hlt _).mp hi
    have hj' : j < 4 := (hlt _).mp hj
    have hindex : (i + 3) % 5 = (j + 3) % 5 := congrArg SymbolId.index heq
    rw [SymbolId.mk.injEq]
    omega
  rw [← hid₁] at hlinked
  have hearly := image_of_links callerFirst calleeFirst "b" "b" b₁ ⟨1⟩ calleeNumber hb₁ hσ hlinked
    (callerFirst.take 7) (calleeFirst.take 10) c₁ c₂ ⟨_, List.take_append_drop _ _⟩
    ⟨_, List.take_append_drop _ _⟩ hc₁ hc₂ (hid₁.trans hcid₁.symm) hcid₂.symm
    (by rw [hcid₁, hcid₂, hcount])
  have hlate := image_of_links callerFirst calleeFirst "b" "b" b₁ ⟨1⟩ calleeNumber hb₁ hσ hlinked
    callerFirst calleeFirst b₁ b₂ List.prefix_rfl List.prefix_rfl hb₁ hb₂ rfl hid₂.symm
    (by rw [hid₂]; exact hlinked.length_eq)
  refine ⟨b₁, b₂, c₁, c₂, hc₁, hc₂, hb₁, hb₂, hpending, ?_, hearly.code, hcode, hlate.code, ?_⟩
  · rw [hearly.pending, hpending]
    rfl
  · exact hlate.place ⟨2⟩ ((hlt _).mpr (by decide))

end Session

end ImageLinker
