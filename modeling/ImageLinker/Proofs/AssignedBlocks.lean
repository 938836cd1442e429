import ImageLinker.Proofs.HandledBlocks
import ImageLinker.Proofs.Patching

/-!
# Whole blocks in the place of others

A block that is open for writing can also be replaced: a copy of another block can be put in its
place, from the same function, from another one or from another builder. No session does so. A block
takes its symbol along, so that a function then carries symbols that its builder never gave it, and
what sessions promise of functions, blocks and handles is lost. Two blocks that are exchanged are no
different: that is a copy and two assignments.

Here the assignment of whole blocks is a step of its own, on top of the commands of sessions.

* `Edit`, `Session.edited`: runs in which blocks are assigned as well. Without any assignment they
  are sessions (`Session.edited_commands`).
* `Session.Kept`: what all such runs keep. An assignment does not touch names and numbers, and the
  fixups of a block lie in its code wherever the block is.
* `Session.placed_edited`: images are laid out without gaps in these runs too, but a symbol has an
  address if some function was linked that carried it, whosever symbol it is.
* `Function.Placeable`, `Session.answers_edited`: when a link faults. Only an assignment can lead to
  a function whose symbols cannot be placed.
* `repeatedBlock`, `borrowedBlock`, `borrowedSymbol`, `exchangedBlocks`: runs in which a link
  faults, an address goes to a function that was never linked, and handles stand for each other's
  blocks.
-/

namespace ImageLinker

/-! ## Assignments -/

/-- Puts a copy of a block in the place of another one, which has to be open for writing. The copy
is made first. Nobody asks what function or builder the two are of. -/
def Workspace.assignBlock (function ref source sourceRef : String) : Step Unit := do
  let block ← Step.found sourceRef (← blockAt source sourceRef)
  let r ← refAt ref
  let f ← functionAt function
  let _ ← Step.ofError (f.writableBlock r)
  setFunction function (f.setBlock r block)

/-- A command of a session, or the assignment of a whole block. -/
inductive Edit where
  | command (c : Command)
  | assign (function ref source sourceRef : String)

namespace Session

/-- Carries out a command or an assignment. An assignment is not noted, so that from then on only
the record of links can be relied on, and not that of what was written. -/
def edit (s : Session) : Edit → Session
  | .command c => s.step c
  | .assign function ref source sourceRef =>
    { s with
      workspace := ((Workspace.assignBlock function ref source sourceRef).exec s.workspace).2 }

/-- The session after commands and assignments, from an empty workspace on. -/
def edited (es : List Edit) : Session :=
  es.foldl edit {}

/-- Without assignments, these are the sessions. -/
theorem edited_commands (cs : List Command) : edited (cs.map .command) = after cs := by
  rw [edited, after, List.foldl_map]
  rfl

variable {s s' : Session}

/-- What an assignment does that is not refused. -/
inductive Assigned (s : Session) : Session → Prop where
  | intro {function source : String} {f g : Function} {r q : BlockRef} {old block : Block}
    (hf : s.workspace.functions.get? function = some f) (hold : f.writableBlock r = .ok old)
    (hg : s.workspace.functions.get? source = some g) (hblock : g.block? q = some block) :
    Assigned s { s with
      workspace := { s.workspace with
        functions := s.workspace.functions.set function (f.setBlock r block) } }

theorem change_of_unassigned {function ref source sourceRef : String}
    (h : ((Workspace.assignBlock function ref source sourceRef).exec s.workspace).2 =
      s.workspace) : Change s (s.edit (.assign function ref source sourceRef)) := by
  rw [edit, h]
  exact .none s

/-- What one edit can do. The lookups of an assignment come in their order, and whatever is not
found or not open, nothing has changed by then. -/
theorem edit_cases (s : Session) (e : Edit) : Change s (s.edit e) ∨ Assigned s (s.edit e) := by
  cases e with
  | command c => exact .inl (step_change s c)
  | assign function ref source sourceRef =>
  cases hq : s.workspace.refs.get? sourceRef with
  | none =>
    exact .inl (change_of_unassigned (by simp [Workspace.assignBlock, Workspace.blockAt, hq]))
  | some q =>
  cases hg : s.workspace.functions.get? source with
  | none =>
    exact .inl (change_of_unassigned (by simp [Workspace.assignBlock, Workspace.blockAt, hq, hg]))
  | some g =>
  -- From here on the copy is there or it is not.
  have hcopy : (Workspace.blockAt source sourceRef).exec s.workspace =
      (.ok (g.block? q), s.workspace) := by
    simp [Workspace.blockAt, hq, hg]
  cases hblock : g.block? q with
  | none => exact .inl (change_of_unassigned (by simp [Workspace.assignBlock, hcopy, hblock]))
  | some block =>
  rw [hblock] at hcopy
  cases hr : s.workspace.refs.get? ref with
  | none => exact .inl (change_of_unassigned (by simp [Workspace.assignBlock, hcopy, hr]))
  | some r =>
  cases hf : s.workspace.functions.get? function with
  | none => exact .inl (change_of_unassigned (by simp [Workspace.assignBlock, hcopy, hr, hf]))
  | some f =>
  cases hold : f.writableBlock r with
  | error e =>
    exact .inl (change_of_unassigned
      (by simp [Workspace.assignBlock, hcopy, hr, hf, hold, Except.mapError]))
  | ok old =>
    have hexec : ((Workspace.assignBlock function ref source sourceRef).exec s.workspace).2 =
        { s.workspace with
          functions := s.workspace.functions.set function (f.setBlock r block) } := by
      simp [Workspace.assignBlock, hcopy, hr, hf, hold, Except.mapError]
    right
    rw [edit, hexec]
    exact .intro hf hold hg hblock

/-- An invariant of all changes and of assignments holds after all edits. -/
theorem edited_induction {P : Session → Prop} (hstart : P {})
    (hchange : ∀ s s', P s → Change s s' → P s')
    (hassigned : ∀ s s', P s → Assigned s s' → P s') (es : List Edit) : P (edited es) := by
  have hrun : ∀ s, P s → P (es.foldl edit s) := by
    induction es with
    | nil => exact fun s hs => hs
    | cons e es ih =>
      intro s hs
      rcases edit_cases s e with h | h
      · exact ih _ (hchange s _ hs h)
      · exact ih _ (hassigned s _ hs h)
  exact hrun {} hstart

end Session

/-! ## Fixups within their code -/

namespace Block

/-- The eight bytes of each fixup lie in the code of the block. -/
def FixupsFit (b : Block) : Prop :=
  ∀ g ∈ b.fixups, g.offset + addressSize ≤ b.size

namespace FixupsFit

variable {b b' : Block}

theorem empty (symbol : SymbolId) : FixupsFit { symbol } := by
  simp [FixupsFit]

theorem foldl_append (h : b.FixupsFit) (is : List Instruction) :
    (is.foldl Block.append b).FixupsFit := by
  intro g hg
  have hsize : (is.foldl Block.append b).size = b.size + codeSize is := by
    rw [Block.size, code_foldl_append, ← Array.length_toList]
    simp [Block.size]
  rw [fixups_foldl_append, ← Array.mem_toList_iff, Array.toList_appendList, List.mem_append,
    Array.mem_toList_iff] at hg
  rw [hsize]
  rcases hg with hg | hg
  · have hfits := h g hg
    omega
  · exact (fixupsFrom_bounds hg).2

theorem of_patched (h : b.FixupsFit) (hpatched : b.Patched b') : b'.FixupsFit := by
  intro g hg
  rw [hpatched.fixups] at hg
  rw [hpatched.size]
  exact h g hg

theorem of_forall₂ {bs bs' : List Block} (hpatched : List.Forall₂ Patched bs bs')
    (h : ∀ b ∈ bs, b.FixupsFit) : ∀ b ∈ bs', b.FixupsFit := by
  induction hpatched with
  | nil => exact h
  | cons hb _ ih =>
    rw [List.forall_mem_cons] at h ⊢
    exact ⟨h.1.of_patched hb, ih h.2⟩

end FixupsFit

end Block

/-- The fixups of every block lie in its code. -/
def Function.FixupsFit (f : Function) : Prop :=
  ∀ block ∈ f.blocks, block.FixupsFit

theorem Function.FixupsFit.setBlock {f : Function} {block : Block} (h : f.FixupsFit)
    (hblock : block.FixupsFit) (r : BlockRef) : (f.setBlock r block).FixupsFit := by
  intro other hother
  rcases Array.mem_or_eq_of_mem_setIfInBounds hother with hold | rfl
  · exact h other hold
  · exact hblock

/-- Patching code in which all fixups lie gives code of the same size, and those that wait. -/
theorem patch_of_fits {symbols : Symbols} {code : Code} {fixups : List Fixup}
    (hknown : ∀ g ∈ fixups, (symbols.get? g.symbol).isSome)
    (hfits : ∀ g ∈ fixups, g.offset + addressSize ≤ code.size) :
    ∃ patched, patch symbols code fixups = .ok (patched, fixups.filter symbols.isWaiting) ∧
      patched.size = code.size := by
  have hserved : ∀ w ∈ symbols.served fixups, w.1.offset + addressSize ≤ code.size := by
    intro w hw
    obtain ⟨g, hg, hw⟩ := List.mem_filterMap.mp hw
    obtain ⟨a, -, rfl⟩ := Option.map_eq_some_iff.mp hw
    exact hfits g hg
  have happly := applyAll_eq hserved
  refine ⟨_, ?_, (applyAll_frame happly).1⟩
  rw [patch_eq_applyAll hknown, happly]
  rfl

namespace Builder

/-- What waits in the code is known, and its eight bytes are there. -/
structure Layout.Fits (symbols : Symbols) (l : Layout) : Prop where
  known : ∀ g ∈ l.pending, (symbols.get? g.symbol).isSome
  fits : ∀ g ∈ l.pending, g.offset + addressSize ≤ l.code.size

/-- A block whose fixups lie in its code joins the image without a fault. -/
theorem Layout.Fits.append {symbols : Symbols} {l : Layout} (h : l.Fits symbols) {block : Block}
    (hblock : block.FixupsFit) (hknown : ∀ g ∈ block.fixups, (symbols.get? g.symbol).isSome)
    (hroom : l.code.size + block.size < addressLimit) :
    ∃ l', l.append symbols block = .ok l' ∧ l'.Fits symbols ∧
      l'.code.size = l.code.size + block.size := by
  have hin : ∀ g ∈ block.fixups.toList, g.offset + addressSize ≤ block.code.size :=
    fun g hg => hblock g (Array.mem_toList_iff.mp hg)
  obtain ⟨code, hpatch, hsize⟩ :=
    patch_of_fits (fun g hg => hknown g (Array.mem_toList_iff.mp hg)) hin
  have haddresses : ∀ g ∈ block.fixups.toList.filter symbols.isWaiting,
      g.offset + l.code.size < addressLimit := by
    intro g hg
    have hfits := hin g (List.mem_of_mem_filter hg)
    unfold Block.size at hroom
    unfold addressSize at hfits
    omega
  have hmoved := mapM_relocated haddresses
  have happend : l.append symbols block = .ok {
      code := l.code ++ code
      pending := l.pending ++ (block.fixups.toList.filter symbols.isWaiting).map fun g =>
        { g with offset := g.offset + l.code.size }
      blocks := l.blocks.push { block with code } } := by
    simp only [Layout.append, hpatch, hmoved, bind, Except.bind, pure, Except.pure]
  refine ⟨_, happend, ⟨?_, ?_⟩, ?_⟩
  · intro g hg
    rcases List.mem_append.mp hg with hg | hg
    · exact h.known g hg
    · obtain ⟨g, hwaiting, rfl⟩ := List.mem_map.mp hg
      exact hknown g (Array.mem_toList_iff.mp (List.mem_of_mem_filter hwaiting))
  · intro g hg
    rw [Array.size_append, hsize]
    rcases List.mem_append.mp hg with hg | hg
    · have hfits := h.fits g hg
      omega
    · obtain ⟨g, hwaiting, rfl⟩ := List.mem_map.mp hg
      have hfits := hin g (List.mem_of_mem_filter hwaiting)
      show g.offset + l.code.size + addressSize ≤ _
      omega
  · rw [Array.size_append, hsize]
    rfl

/-- The second pass. Induction on the blocks, with the image that is there already. -/
theorem Layout.Fits.foldlM_append {symbols : Symbols} {blocks : List Block} {l : Layout}
    (h : l.Fits symbols) (hblocks : ∀ block ∈ blocks, block.FixupsFit)
    (hknown : ∀ block ∈ blocks, ∀ g ∈ block.fixups, (symbols.get? g.symbol).isSome)
    (hroom : l.code.size + (blocks.map Block.size).sum < addressLimit) :
    ∃ l', blocks.foldlM (Layout.append symbols) l = .ok l' ∧ l'.Fits symbols ∧
      l'.code.size = l.code.size + (blocks.map Block.size).sum := by
  induction blocks generalizing l with
  | nil => exact ⟨l, rfl, h, rfl⟩
  | cons block blocks ih =>
    rw [List.map_cons, List.sum_cons] at hroom
    obtain ⟨l₁, hfirst, hfits₁, hsize₁⟩ := h.append (hblocks block List.mem_cons_self)
      (hknown block List.mem_cons_self) (by omega)
    obtain ⟨l', hrest, hfits, hsize⟩ := ih hfits₁
      (fun b hb => hblocks b (List.mem_cons_of_mem _ hb))
      (fun b hb => hknown b (List.mem_cons_of_mem _ hb)) (by omega)
    refine ⟨l', ?_, hfits, ?_⟩
    · rw [List.foldlM_cons, hfirst]
      exact hrest
    · rw [hsize, hsize₁, List.map_cons, List.sum_cons, Nat.add_assoc]

/-- What the passes over the code rely on: all that waits is known and lies in the image. -/
structure PendingFits (b : Builder) : Prop where
  known : ∀ g ∈ b.pending, (b.symbols.get? g.symbol).isSome
  fits : ∀ g ∈ b.pending, g.offset + addressSize ≤ b.code.size
  code_lt : b.code.size < addressLimit

variable {b b' : Builder} {f f' : Function}

/-- The second and the third pass, in an arena that the first one may have left. -/
theorem PendingFits.exists_layout (h : b.PendingFits) (hf : f.FixupsFit) {symbols : Symbols}
    (hgrows : b.symbols.Grows symbols)
    (hknown : ∀ g ∈ f.fixups, (b.symbols.get? g.symbol).isSome)
    (hroom : b.code.size + (f.blocks.toList.map Block.size).sum < addressLimit) :
    ∃ layout code, f.blocks.toList.foldlM (Layout.append symbols)
        { code := b.code, pending := b.pending } = .ok layout ∧ layout.Fits symbols ∧
      patch symbols layout.code layout.pending =
        .ok (code, layout.pending.filter symbols.isWaiting) ∧
      code.size = layout.code.size ∧
      code.size = b.code.size + (f.blocks.toList.map Block.size).sum := by
  have hstart : Layout.Fits symbols { code := b.code, pending := b.pending } :=
    ⟨fun g hg => hgrows.isSome (h.known g hg), h.fits⟩
  obtain ⟨layout, hlayout, hfits, hsize⟩ := hstart.foldlM_append
    (fun block hblock => hf block (Array.mem_toList_iff.mp hblock))
    (fun block hblock g hg => hgrows.isSome (hknown g
      (List.mem_flatMap.mpr ⟨block, hblock, Array.mem_toList_iff.mpr hg⟩))) hroom
  obtain ⟨code, hpatch, hcode⟩ := patch_of_fits hfits.known hfits.fits
  exact ⟨layout, code, hlayout, hfits, hpatch, hcode, hcode.trans hsize⟩

theorem PendingFits.of_sameImage (h : b.PendingFits) (hsame : b.SameImage b') :
    b'.PendingFits where
  known := by
    rw [hsame.pending]
    exact fun g hg => hsame.grows.isSome (h.known g hg)
  fits := by
    rw [hsame.pending, hsame.code]
    exact h.fits
  code_lt := by
    rw [hsame.code]
    exact h.code_lt

/-- A link keeps this, whatever symbols the blocks have, and the image grows by the function. -/
theorem PendingFits.link (h : b.PendingFits) (hf : f.FixupsFit) (hlink : b.link f = .ok (b', f')) :
    b'.PendingFits ∧
      b'.code.size = b.code.size + (f.blocks.toList.map Block.size).sum := by
  obtain ⟨-, -, hknown, -⟩ := link_eq_ok hlink
  obtain ⟨symbols, stop, layout, hblocks, hresolve, hlayout, hpatch, -, -⟩ := link_passes hlink
  have hplacing := Symbols.place_eq_ok hblocks
  have hgrows := hplacing.grows.trans (Symbols.grows_resolve hresolve)
  have hroom := hplacing.stop_lt h.code_lt
  rw [hplacing.stop_eq] at hroom
  obtain ⟨layout', code, hlayout', hfits, hpatch', hsame, hsize⟩ :=
    h.exists_layout hf hgrows hknown hroom
  rw [hlayout', Except.ok.injEq] at hlayout
  subst hlayout
  rw [hpatch', Except.ok.injEq, Prod.mk.injEq] at hpatch
  obtain ⟨rfl, hpending⟩ := hpatch
  refine ⟨⟨?_, ?_, by omega⟩, hsize⟩
  · intro g hg
    rw [← hpending] at hg
    exact hfits.known g (List.mem_of_mem_filter hg)
  · intro g hg
    rw [← hpending] at hg
    rw [hsame]
    exact hfits.fits g (List.mem_of_mem_filter hg)

end Builder

theorem Function.FixupsFit.link {b b' : Builder} {f f' : Function} (hf : f.FixupsFit)
    (hlink : b.link f = .ok (b', f')) : f'.FixupsFit := by
  intro block hblock
  refine Block.FixupsFit.of_forall₂ (Builder.link_writes hlink).2 ?_ block
    (Array.mem_toList_iff.mpr hblock)
  exact fun block hblock => hf block (Array.mem_toList_iff.mp hblock)

/-! ## Symbols that can be placed -/

namespace Function

/-- The symbols that a link of the function gives addresses to: that of the function and those that
its blocks have by now. -/
def carried (f : Function) : List SymbolId :=
  f.symbol :: f.blocks.toList.map Block.symbol

/-- Each symbol can be given an address, and none has to be given two. -/
structure Placeable (f : Function) (b : Builder) : Prop where
  nodup : f.carried.Nodup
  isOpen : ∀ id ∈ f.carried, b.symbols.IsOpen id

end Function

theorem Symbols.isOpen_of_resolve_eq_ok {s t : Symbols} {id : SymbolId} {address size : Nat}
    (h : s.resolve id address size = .ok t) : s.IsOpen id := by
  obtain ⟨symbol, hs, haddress, -⟩ := resolve_eq_ok h
  exact ⟨symbol, hs, haddress⟩

/-- The first pass goes through only for different symbols without addresses: a symbol that was
placed is not open any more. Induction on the blocks. -/
theorem Symbols.isOpen_of_place {s t : Symbols} {cursor stop : Nat} {blocks : List Block}
    (h : s.place cursor blocks = .ok (t, stop)) :
    (blocks.map Block.symbol).Nodup ∧ ∀ id ∈ blocks.map Block.symbol, s.IsOpen id := by
  induction blocks generalizing s cursor with
  | nil => simp
  | cons block rest ih =>
    unfold place at h
    obtain ⟨s₁, hresolve, h⟩ := bind_eq_ok h
    obtain ⟨next, -, h⟩ := bind_eq_ok h
    obtain ⟨hnodup, hopen⟩ := ih h
    have hother : ∀ id ∈ rest.map Block.symbol, id ≠ block.symbol := by
      rintro id hid rfl
      have hclosed := (isOpen_iff.mp (hopen _ hid)).2
      rw [addressOf?_resolve hresolve] at hclosed
      cases hclosed
    rw [List.map_cons, List.nodup_cons, List.forall_mem_cons]
    refine ⟨⟨fun hmem => hother _ hmem rfl, hnodup⟩, isOpen_of_resolve_eq_ok hresolve, ?_⟩
    intro id hid
    have hopen := hopen id hid
    rwa [IsOpen, get?_resolve_of_ne hresolve (hother id hid)] at hopen

/-- The fault is about placing one of these symbols: the arena does not have it, or it has an
address already. -/
inductive Fault.IsMisplaced (ids : List SymbolId) : Fault → Prop where
  | missing {id : SymbolId} (hid : id ∈ ids) : IsMisplaced ids (.noSymbol id)
  | twice (name : String) : IsMisplaced ids (.placedTwice name)

theorem Fault.IsMisplaced.mono {ids ids' : List SymbolId} {fault : Fault}
    (h : fault.IsMisplaced ids) (hsubset : ids ⊆ ids') : fault.IsMisplaced ids' := by
  cases h with
  | missing hid => exact .missing (hsubset hid)
  | twice name => exact .twice name

theorem Symbols.resolve_eq_error {s : Symbols} {id : SymbolId} {address size : Nat} {fault : Fault}
    (h : s.resolve id address size = .error fault) : fault.IsMisplaced [id] := by
  by_cases hopen : s.IsOpen id
  · obtain ⟨t, ht⟩ := exists_resolve hopen address size
    rw [ht] at h
    cases h
  cases hget : s.get? id with
  | none =>
    simp only [resolve, get, hget, bind, Except.bind, Except.error.injEq] at h
    subst h
    exact .missing (List.mem_singleton.mpr rfl)
  | some symbol =>
    have hresolved : symbol.isResolved = true := by
      by_contra hnone
      exact hopen ⟨symbol, hget, by simpa [Symbol.isResolved] using hnone⟩
    simp only [resolve, get, hget, hresolved, bind, Except.bind, if_true, throw, throwThe,
      MonadExceptOf.throw, Except.error.injEq] at h
    subst h
    exact .twice symbol.name

theorem Symbols.place_eq_error {s : Symbols} {cursor : Nat} {blocks : List Block} {fault : Fault}
    (hroom : cursor + (blocks.map Block.size).sum < addressLimit)
    (h : s.place cursor blocks = .error fault) :
    fault.IsMisplaced (blocks.map Block.symbol) := by
  induction blocks generalizing s cursor with
  | nil => cases h
  | cons block rest ih =>
    rw [List.map_cons, List.sum_cons] at hroom
    unfold place at h
    cases hresolve : s.resolve block.symbol cursor block.size with
    | error e =>
      simp only [hresolve, bind, Except.bind, Except.error.injEq] at h
      subst h
      exact (resolve_eq_error hresolve).mono (by simp)
    | ok s₁ =>
      have hnext : addAddress cursor block.size = .ok (cursor + block.size) := by
        rw [addAddress, if_pos (by omega)]
      simp only [hresolve, hnext, bind, Except.bind] at h
      exact (ih (by omega) h).mono (List.subset_cons_self _ _)

namespace Builder

variable {b : Builder} {f : Function}

theorem placeable_of_place {r : Builder × Function} (h : b.place f = .ok r) : f.Placeable b := by
  unfold place at h
  obtain ⟨⟨symbols, stop⟩, hblocks, h⟩ := bind_eq_ok h
  obtain ⟨symbols', hresolve, -⟩ := bind_eq_ok h
  obtain ⟨hnodup, hopen⟩ := Symbols.isOpen_of_place hblocks
  have hplacing := Symbols.place_eq_ok hblocks
  have hlast := Symbols.isOpen_of_resolve_eq_ok hresolve
  -- The blocks have their addresses when the function gets its own.
  have hother : f.symbol ∉ f.blocks.toList.map Block.symbol := by
    intro hmem
    obtain ⟨block, hblock, hsymbol⟩ := List.mem_map.mp hmem
    obtain ⟨a, ha⟩ := exists_mem_placedFrom b.code.size hblock
    have hclosed := (Symbols.isOpen_iff.mp hlast).2
    rw [← hsymbol, hplacing.placed _ ha] at hclosed
    cases hclosed
  refine ⟨List.nodup_cons.mpr ⟨hother, hnodup⟩, List.forall_mem_cons.mpr ⟨?_, hopen⟩⟩
  have hsame := hplacing.others f.symbol fun block hblock heq =>
    hother (List.mem_map.mpr ⟨block, hblock, heq⟩)
  rwa [Symbols.IsOpen, hsame] at hlast

/-- **When the passes go through.** Beyond what is checked and that there is room, it takes symbols
that can be placed, and that is all. -/
theorem exists_place_iff (h : b.PendingFits) (hf : f.FixupsFit)
    (hknown : ∀ g ∈ f.fixups, (b.symbols.get? g.symbol).isSome)
    (hroom : b.code.size + f.size < addressLimit) :
    (∃ r, b.place f = .ok r) ↔ f.Placeable b := by
  constructor
  · rintro ⟨r, hr⟩
    exact placeable_of_place hr
  · rintro ⟨hnodup, hopen⟩
    obtain ⟨hother, hnodup⟩ := List.nodup_cons.mp hnodup
    obtain ⟨hfirst, hopen⟩ := List.forall_mem_cons.mp hopen
    rw [Function.size_eq] at hroom
    obtain ⟨symbols, stop, hblocks⟩ := Symbols.exists_place
      (fun block hblock => hopen _ (List.mem_map.mpr ⟨block, hblock, rfl⟩)) hnodup hroom
    have hplacing := Symbols.place_eq_ok hblocks
    have hlast : symbols.IsOpen f.symbol := by
      have hsame := hplacing.others f.symbol fun block hblock heq =>
        hother (List.mem_map.mpr ⟨block, hblock, heq⟩)
      rwa [Symbols.IsOpen, hsame]
    obtain ⟨symbols', hresolve⟩ :=
      Symbols.exists_resolve hlast b.code.size (stop - b.code.size)
    have hgrows := hplacing.grows.trans (Symbols.grows_resolve hresolve)
    obtain ⟨layout, code, hlayout, -, hpatch, -, -⟩ := h.exists_layout hf hgrows hknown hroom
    simp only [place, hblocks, hresolve, hlayout, hpatch, bind, Except.bind, pure, Except.pure]
    exact ⟨_, rfl⟩

/-- **What a fault is about.** With room for the function, the passes over the code do not fault, so
that it is the first pass that does: a symbol is not there, or it has an address already. -/
theorem place_eq_error (h : b.PendingFits) (hf : f.FixupsFit)
    (hknown : ∀ g ∈ f.fixups, (b.symbols.get? g.symbol).isSome)
    (hroom : b.code.size + f.size < addressLimit) {fault : Fault}
    (hfault : b.place f = .error fault) : fault.IsMisplaced f.carried := by
  rw [Function.size_eq] at hroom
  cases hblocks : b.symbols.place b.code.size f.blocks.toList with
  | error e =>
    simp only [place, hblocks, bind, Except.bind, Except.error.injEq] at hfault
    subst hfault
    exact (Symbols.place_eq_error hroom hblocks).mono (List.subset_cons_self _ _)
  | ok placed =>
  rcases placed with ⟨symbols, stop⟩
  cases hresolve : symbols.resolve f.symbol b.code.size (stop - b.code.size) with
  | error e =>
    simp only [place, hblocks, hresolve, bind, Except.bind, Except.error.injEq] at hfault
    subst hfault
    exact (Symbols.resolve_eq_error hresolve).mono (by simp [Function.carried])
  | ok symbols' =>
    have hgrows := (Symbols.place_eq_ok hblocks).grows.trans (Symbols.grows_resolve hresolve)
    obtain ⟨layout, code, hlayout, -, hpatch, -, -⟩ := h.exists_layout hf hgrows hknown hroom
    simp only [place, hblocks, hresolve, hlayout, hpatch, bind, Except.bind, pure, Except.pure]
      at hfault
    cases hfault

/-- How a link ends: it succeeds, it is refused or it faults, each exactly when. -/
structure LinkEnds (b : Builder) (f : Function) : Prop where
  ok_iff : (∃ r, b.link f = .ok r) ↔ f.OpenIn b ∧
    (∀ g ∈ f.fixups, (b.symbols.get? g.symbol).isSome) ∧ f.Placeable b
  error_iff : (∃ e, b.link f = .error (.error e)) ↔
    ¬(f.OpenIn b ∧ ∀ g ∈ f.fixups, (b.symbols.get? g.symbol).isSome)
  fault_iff : (∃ fault, b.link f = .error (.fault fault)) ↔ f.OpenIn b ∧
    (∀ g ∈ f.fixups, (b.symbols.get? g.symbol).isSome) ∧ ¬f.Placeable b
  /-- No other fault is possible: all writes lie in the code, and all sums are addresses. -/
  misplaced : ∀ fault, b.link f = .error (.fault fault) → fault.IsMisplaced f.carried

theorem linkEnds (h : b.PendingFits) (hf : f.FixupsFit)
    (hcheck : Answers (f.OpenIn b) (b.checkUnlinked f))
    (hroom : b.code.size + f.size < addressLimit) : b.LinkEnds f := by
  rcases hcheck with ⟨hopen, u, hcheck⟩ | ⟨hclosed, e, hcheck⟩
  swap
  · have hlink : b.link f = .error (.error e) := by
      simp [link, hcheck, bind, Except.bind]
    exact {
      ok_iff := iff_of_false (by simp [hlink]) fun h => hclosed h.1
      error_iff := iff_of_true ⟨e, hlink⟩ fun h => hclosed h.1
      fault_iff := iff_of_false (by simp [hlink]) fun h => hclosed h.1
      misplaced := by simp [hlink] }
  cases hunknown : b.unknownSymbol? f with
  | some id =>
    have hlink : b.link f = .error (.error (.unknownSymbol id)) := by
      simp [link, hcheck, hunknown, bind, Except.bind]
    have hunknown : ¬∀ g ∈ f.fixups, (b.symbols.get? g.symbol).isSome := by
      rw [← unknownSymbol?_eq_none_iff, hunknown]
      simp
    exact {
      ok_iff := iff_of_false (by simp [hlink]) fun h => hunknown h.2.1
      error_iff := iff_of_true ⟨_, hlink⟩ fun h => hunknown h.2
      fault_iff := iff_of_false (by simp [hlink]) fun h => hunknown h.2.1
      misplaced := by simp [hlink] }
  | none =>
    have hknown := unknownSymbol?_eq_none_iff.mp hunknown
    have hplace := exists_place_iff h hf hknown hroom
    cases hresult : b.place f with
    | ok r =>
      have hplaceable := hplace.mp ⟨r, hresult⟩
      have hlink : b.link f = .ok r := by
        simp [link, hcheck, hunknown, hresult, bind, Except.bind, Except.mapError]
      exact {
        ok_iff := iff_of_true ⟨r, hlink⟩ ⟨hopen, hknown, hplaceable⟩
        error_iff := iff_of_false (by simp [hlink]) fun h => h ⟨hopen, hknown⟩
        fault_iff := iff_of_false (by simp [hlink]) fun h => h.2.2 hplaceable
        misplaced := by simp [hlink] }
    | error fault =>
      have hplaceable : ¬f.Placeable b := by
        rw [← hplace, hresult]
        simp
      have hlink : b.link f = .error (.fault fault) := by
        simp [link, hcheck, hunknown, hresult, bind, Except.bind, Except.mapError]
      exact {
        ok_iff := iff_of_false (by simp [hlink]) fun h => hplaceable h.2.2
        error_iff := iff_of_false (by simp [hlink]) fun h => h ⟨hopen, hknown⟩
        fault_iff := iff_of_true ⟨fault, hlink⟩ ⟨hopen, hknown, hplaceable⟩
        misplaced := by
          simpa [hlink] using place_eq_error h hf hknown hroom hresult }

end Builder

/-! ## What all runs keep -/

theorem Slots.get?_set_cases {α : Type} {s : Slots α} {name other : String} {a x : α}
    (h : (s.set name a).get? other = some x) : x = a ∨ s.get? other = some x := by
  rw [get?_set] at h
  split at h
  · exact .inl (Option.some.inj h).symm
  · exact .inr h

namespace Session

variable {s s' : Session}

/-- Where the function of a slot comes from: it is what has become of a function that there was, or
it is new. -/
inductive SlotOrigin (s s' : Session) (f : Function) : Prop where
  | kept {slot : String} {g : Function} (hg : s.workspace.functions.get? slot = some g)
    (hname : f.name = g.name) (hsymbol : f.symbol = g.symbol) (hbuilder : f.builder = g.builder)
  | made {builder name : String} {b b' : Builder}
    (hb : s.workspace.builders.get? builder = some b)
    (hb' : s'.workspace.builders.get? builder = some b') (h : b.newFunction name = (.ok f, b'))

/-- Every function in a slot has its fixups in the code of its blocks. -/
def FunctionsFit (s : Session) : Prop :=
  ∀ slot f, s.workspace.functions.get? slot = some f → f.FixupsFit

/-- What a command does to the functions in their slots. -/
theorem Change.slot_origin (h : Change s s') (hfit : s.FunctionsFit) {slot : String} {f : Function}
    (hf : s'.workspace.functions.get? slot = some f) : f.FixupsFit ∧ SlotOrigin s s' f := by
  have hkept : ∀ {slot}, s.workspace.functions.get? slot = some f →
      f.FixupsFit ∧ SlotOrigin s s' f :=
    fun hold => ⟨hfit _ f hold, .kept hold rfl rfl rfl⟩
  cases h with
  | aside => exact hkept hf
  | builderMade => exact hkept hf
  | functionMade made hb h =>
    rcases Slots.get?_set_cases hf with rfl | hold
    · refine ⟨?_, .made hb (Slots.get?_set_self _ _ _) h⟩
      rw [Builder.newFunction_eq_ok h]
      simp [Function.FixupsFit]
    · exact hkept hold
  | functionRefused => exact hkept hf
  | functionCopied copy hg =>
    rcases Slots.get?_set_cases hf with rfl | hold
    · exact hkept hg
    · exact hkept hold
  | @blockMade builder function b b' g g' r made hb hg h =>
    rcases Slots.get?_set_cases hf with rfl | hold
    · obtain ⟨-, rfl⟩ := Builder.appendBlock_eq_ok h
      refine ⟨?_, .kept hg rfl rfl rfl⟩
      intro block hblock
      rcases Array.mem_push.mp hblock with hold | rfl
      · exact hfit function g hg block hold
      · exact .empty _
    · exact hkept hold
  | blockRefused => exact hkept hf
  | @written function ref g r block is journal hg hr hblock hchecked =>
    rcases Slots.get?_set_cases hf with rfl | hold
    · have hmem := List.mem_of_getElem? (writableBlock_eq_ok hblock).2
      have hopen := hfit function g hg block (Array.mem_toList_iff.mp hmem)
      exact ⟨(hfit function g hg).setBlock (hopen.foldl_append is) r, .kept hg rfl rfl rfl⟩
    · exact hkept hold
  | @linked builder function b b' g g' journal hb hg h =>
    rcases Slots.get?_set_cases hf with rfl | hold
    · refine ⟨(hfit function g hg).link h, ?_⟩
      obtain ⟨_, _, layout, -, -, -, -, -, rfl⟩ := Builder.link_passes h
      exact .kept hg rfl rfl rfl
    · exact hkept hold
  | globalsChanged => exact hkept hf
  | finished => exact hkept hf

/-- What commands and assignments keep. -/
structure Kept (s : Session) : Prop where
  builders : s.BuildersSound fun b ls => b.PendingFits ∧ b.Placed ls
  names : ∀ slot b, s.workspace.builders.get? slot = some b → b.NamesSound
  functions : s.FunctionsFit
  number_lt : ∀ slot f, s.workspace.functions.get? slot = some f →
    f.builder.number < s.workspace.builderCount
  /-- A builder knows its functions by name and symbol, though not their blocks. -/
  named : ∀ slot b slot' f, s.workspace.builders.get? slot = some b →
    s.workspace.functions.get? slot' = some f → f.builder = b.id →
    (f.name, f.symbol) ∈ b.names.functions.entries

theorem kept_invariant :
    ImageInvariant fun b ls => b.PendingFits ∧ b.Placed ls where
  empty id := ⟨⟨by simp, by simp, by simp [addressLimit]⟩, .empty id⟩
  sameImage h hsame := ⟨h.1.of_sameImage hsame, h.2.of_sameImage hsame⟩

namespace Kept

theorem change (h : s.Kept) (hchange : Change s s') : s'.Kept := by
  have hbuilders' : s'.BuildersSound fun b ls => b.PendingFits ∧ b.Placed ls := by
    refine h.builders.change_of_links kept_invariant ?_ hchange
    intro builder function b f b' f' hb hf hlink
    obtain ⟨hpending, hplaced⟩ := h.builders.holds builder b hb
    obtain ⟨hpending', hsize⟩ := hpending.link (h.functions function f hf) hlink
    exact ⟨hpending', hplaced.link hlink hsize⟩
  constructor
  case builders => exact hbuilders'
  case names =>
    intro slot b' hb'
    rcases hchange.builder_cases hb' with rfl | ⟨b, hb, rfl | hstep⟩
    · exact .empty _
    · exact h.names slot b' hb
    · exact (h.names slot b hb).step hstep
  case functions => exact fun slot f hf => (hchange.slot_origin h.functions hf).1
  case number_lt =>
    intro slot f hf
    have hcount := hchange.builderCount_le
    cases (hchange.slot_origin h.functions hf).2 with
    | kept hg hname hsymbol hbuilder =>
      have hlt := h.number_lt _ _ hg
      rw [hbuilder]
      omega
    | made hb hb' hmade =>
      have hlt := h.builders.number_lt _ _ hb
      rw [Builder.newFunction_eq_ok hmade]
      exact Nat.lt_of_lt_of_le hlt hcount
  case named =>
    intro slot b' slot' f hb' hf hid
    cases (hchange.slot_origin h.functions hf).2 with
    | kept hg hname hsymbol hbuilder =>
      rw [hname, hsymbol]
      rw [hbuilder] at hid
      rcases hchange.builder_cases hb' with rfl | ⟨b, hb, rfl | hstep⟩
      · -- No function is older than its builder.
        have hlt := h.number_lt _ _ hg
        rw [hid] at hlt
        exact absurd hlt (Nat.lt_irrefl _)
      · exact h.named slot b' _ _ hb hg hid
      · have hlater := hstep.later
        rw [hlater.id] at hid
        exact hlater.functions (h.named slot b _ _ hb hg hid)
    | @made builder name b₀ b₀' hb₀ hb₀' hmade =>
      have hid₀ : f.builder = b₀'.id := by
        rw [Builder.newFunction_eq_ok hmade, (Builder.Step.newFunction hmade).later.id]
      have hslot := hbuilders'.slot_eq builder slot b₀' b' hb₀' hb' (hid₀.symm.trans hid)
      subst hslot
      rw [hb₀', Option.some.injEq] at hb'
      subst hb'
      exact (Function.KnownTo.newFunction hmade).name

/-- An assignment changes one block of one function. Of the block it keeps that its fixups fit, and
of the function all but its blocks. -/
theorem assigned (h : s.Kept) (hassigned : Assigned s s') : s'.Kept := by
  cases hassigned with
  | @intro function source f g r q old block hf hold hg hblock =>
  have hmem := (Function.block?_eq_some_iff.mp hblock).2.2
  have hfit := h.functions source g hg block (Array.mem_of_getElem? hmem)
  constructor
  case builders =>
    exact ⟨h.builders.number_lt, h.builders.slot_eq, h.builders.linked_lt, h.builders.holds⟩
  case names => exact h.names
  case functions =>
    intro slot f' hf'
    rcases Slots.get?_set_cases hf' with rfl | hold
    · exact (h.functions function f hf).setBlock hfit r
    · exact h.functions slot f' hold
  case number_lt =>
    intro slot f' hf'
    rcases Slots.get?_set_cases hf' with rfl | hold
    · exact h.number_lt function f hf
    · exact h.number_lt slot f' hold
  case named =>
    intro slot b slot' f' hb hf' hid
    rcases Slots.get?_set_cases hf' with rfl | hold
    · exact h.named slot b function f hb hf hid
    · exact h.named slot b slot' f' hb hold hid

end Kept

theorem kept_edited (es : List Edit) : (edited es).Kept := by
  refine edited_induction (P := Kept) ?_ (fun s s' h hchange => h.change hchange)
    (fun s s' h hassigned => h.assigned hassigned) es
  exact {
    builders := .empty
    names := fun _ _ hb => nomatch hb
    functions := fun _ _ hf => nomatch hf
    number_lt := fun _ _ hf => nomatch hf
    named := fun _ _ _ _ hb => nomatch hb }

/-! ## Layout and answers -/

theorem Assigned.evolves (h : Assigned s s') : s.Evolves s' := by
  cases h
  exact ⟨Nat.le_refl _, fun _ b hb => .inr ⟨b, hb, .refl b⟩⟩

theorem edit_evolves (s : Session) (e : Edit) : s.Evolves (s.edit e) := by
  rcases edit_cases s e with h | h
  · exact h.evolves
  · exact h.evolves

theorem edited_evolves (es es' : List Edit) : (edited es).Evolves (edited (es ++ es')) := by
  have hrun : ∀ s : Session, s.Evolves (es'.foldl edit s) := by
    induction es' with
    | nil => exact Evolves.refl
    | cons e es' ih => exact fun s => (edit_evolves s e).trans (ih _)
  rw [edited, edited, List.foldl_append]
  exact hrun _

/-- **Images without gaps, whatever is assigned.** The functions that were linked fill the image in
order, and the blocks that they had by then fill them. A symbol has an address if and only if some
function was linked that carried it, and it keeps the address in all that follows. -/
theorem placed_edited (es : List Edit) {slot : String} {b : Builder}
    (hb : (edited es).workspace.builders.get? slot = some b) :
    b.Placed ((edited es).linkedInto b.id) ∧
      ∀ es' slot' b', (edited (es ++ es')).workspace.builders.get? slot' = some b' →
        b'.id = b.id → b.Later b' := by
  have hsound := (kept_edited es).builders
  refine ⟨(hsound.holds slot b hb).2, ?_⟩
  intro es' slot' b' hb' hid
  exact (edited_evolves es es').later_of_id hsound hb hb' hid

/-- **When a link faults.** After any commands and assignments, each function may be handed to each
builder. A request for a block is answered as in a session. A link is refused if the function is not
open in the builder or refers to what the builder does not know; otherwise it faults if and only if
the symbols that the function carries cannot all be placed, and the fault is about one of them. If
no block was ever assigned, it does not fault. A link asks for room, as in a session. -/
theorem answers_edited (es : List Edit) (builder function : String) (b : Builder) (f : Function)
    (hb : (edited es).workspace.builders.get? builder = some b)
    (hf : (edited es).workspace.functions.get? function = some f) :
    Answers (f.OpenIn b ∧ f.nextLabel ∉ b.names.labels.entries.map Prod.fst)
        (b.appendBlock f).1 ∧
      (b.code.size + f.size < addressLimit →
        b.LinkEnds f ∧ ∀ cs : List Command, es = cs.map .command →
          ∀ fault, b.link f ≠ .error (.fault fault)) := by
  have hkept := kept_edited es
  have hnames := hkept.names builder b hb
  have hcheck := Builder.answers_checkUnlinked fun hbuilder =>
    hnames.functions.isSome (hkept.named builder b function f hb hf hbuilder)
  refine ⟨Builder.answers_appendBlock hnames hcheck, fun hroom => ⟨?_, ?_⟩⟩
  · have hpending := (hkept.builders.holds builder b hb).1
    exact Builder.linkEnds hpending (hkept.functions function f hf) hcheck hroom
  · rintro cs rfl fault hfault
    rw [edited_commands] at hb hf
    have hanswers := (answers_after cs builder function b f hb hf).2 hroom
    rw [hfault] at hanswers
    rcases hanswers with ⟨-, r, hr⟩ | ⟨-, e, he⟩
    · cases hr
    · cases he

/-- Both blocks of a function become the second one. -/
def repeatedBlock : List Edit :=
  [ .newBuilder "b" initialCapacity,
    .newFunction "b" "main" "main",
    .appendBlock "b" "main" "entry",
    .appendBlock "b" "main" "exit" ].map .command ++
  [ .assign "main" "entry" "main" "exit" ]

/-- All three ways to end. In a session one function is refused, since its copy was linked, and
another one is linked; the function that holds a block twice faults. -/
theorem answers_repeatedBlock : ∃ b main late c twice,
    (edited (mutualJumps.map .command)).workspace.builders.get? "b" = some b ∧
    (edited (mutualJumps.map .command)).workspace.functions.get? "main" = some main ∧
    (edited (mutualJumps.map .command)).workspace.functions.get? "late" = some late ∧
    b.code.size + main.size < addressLimit ∧ b.code.size + late.size < addressLimit ∧
    main.linked = false ∧ (∃ e, b.link main = .error (.error e)) ∧
    (∃ linked, b.link late = .ok linked) ∧
    (edited repeatedBlock).workspace.builders.get? "b" = some c ∧
    (edited repeatedBlock).workspace.functions.get? "main" = some twice ∧
    c.code.size + twice.size < addressLimit ∧ twice.linked = false ∧
    ∃ fault, c.link twice = .error (.fault fault) := by
  have hbuilder : ((edited (mutualJumps.map .command)).workspace.builders.get? "b").map (fun b =>
      (b.id, b.code.size, b.symbols.addressOf? ⟨0⟩, b.symbols.get? ⟨2⟩)) =
      some (⟨0⟩, 40, some 0, some { name := "late" }) := by
    decide +kernel
  have hfunction : ((edited (mutualJumps.map .command)).workspace.functions.get? "main").map
      (fun main => (main.symbol, main.size, main.linked)) = some (⟨0⟩, 10, false) := by
    decide +kernel
  have hlate : (edited (mutualJumps.map .command)).workspace.functions.get? "late" =
      some { name := "late", symbol := ⟨2⟩, builder := ⟨0⟩ } := by
    decide +kernel
  have hholder : ((edited repeatedBlock).workspace.builders.get? "b").map (fun c =>
      (c.id, c.code.size, c.symbols.addressOf? ⟨0⟩)) = some (⟨0⟩, 0, none) := by
    decide +kernel
  obtain ⟨twice, htwice, hvalue⟩ : ∃ twice,
      (edited repeatedBlock).workspace.functions.get? "main" = some twice ∧ twice = {
        name := "main", symbol := ⟨0⟩, builder := ⟨0⟩
        blocks := #[{ symbol := ⟨2⟩ }, { symbol := ⟨2⟩ }] } :=
    ⟨_, by decide +kernel, rfl⟩
  obtain ⟨b, hb, hbuilder⟩ := Option.map_eq_some_iff.mp hbuilder
  obtain ⟨main, hmain, hfunction⟩ := Option.map_eq_some_iff.mp hfunction
  obtain ⟨c, hc, hholder⟩ := Option.map_eq_some_iff.mp hholder
  simp only [Prod.mk.injEq] at hbuilder hfunction hholder
  obtain ⟨hid, hcode, hplaced, hsymbol⟩ := hbuilder
  obtain ⟨hmainSymbol, hsize, hlinked⟩ := hfunction
  obtain ⟨hid', hcode', hunplaced⟩ := hholder
  have hroom : b.code.size + main.size < addressLimit := by
    rw [hcode, hsize]
    decide
  have hroomLate : b.code.size + Function.size { name := "late", symbol := ⟨2⟩, builder := ⟨0⟩ } <
      addressLimit := by
    rw [hcode]
    decide
  have hroomTwice : c.code.size + twice.size < addressLimit := by
    rw [hcode', hvalue]
    decide
  refine ⟨b, main, _, c, twice, hb, hmain, hlate, hroom, hroomLate, hlinked, ?_, ?_, hc, htwice,
    hroomTwice, by rw [hvalue], ?_⟩
  · have hends := ((answers_edited _ "b" "main" b main hb hmain).2 hroom).1
    refine hends.error_iff.mpr fun h => ?_
    rw [← hmainSymbol, h.1.unplaced] at hplaced
    cases hplaced
  · have hends := ((answers_edited _ "b" "late" b _ hb hlate).2 hroomLate).1
    have hopen : b.symbols.IsOpen ⟨2⟩ := ⟨_, hsymbol, rfl⟩
    refine hends.ok_iff.mpr ⟨⟨hid.symm, rfl, (Symbols.isOpen_iff.mp hopen).2⟩, ?_, ?_⟩
    · intro g hg
      cases hg
    · exact ⟨List.nodup_singleton _, List.forall_mem_singleton.mpr hopen⟩
  · have hends := ((answers_edited _ "b" "main" c twice hc htwice).2 hroomTwice).1
    subst hvalue
    refine hends.fault_iff.mpr ⟨⟨hid'.symm, rfl, hunplaced⟩, ?_, fun h => ?_⟩
    · intro g hg
      cases hg
    · exact absurd h.nodup (by decide)

/-! ## What is lost -/

/-- The one block of a function becomes the second block of a function of another builder. -/
def borrowedBlock : List Edit :=
  [ .newBuilder "a" initialCapacity,
    .newBuilder "b" initialCapacity,
    .newFunction "a" "main" "main",
    .appendBlock "a" "main" "entry",
    .newFunction "b" "other" "other",
    .appendBlock "b" "other" "first",
    .appendBlock "b" "other" "second" ].map .command ++
  [ .assign "main" "entry" "other" "second" ]

/-- Functions that no check refuses fault when they are linked: one symbol would be placed twice,
and the other one is not in the arena at all. -/
theorem link_repeatedBlock : ∃ b twice a main,
    (edited repeatedBlock).workspace.builders.get? "b" = some b ∧
    (edited repeatedBlock).workspace.functions.get? "main" = some twice ∧
    b.link twice = .error (.fault (.placedTwice "main.1")) ∧
    (edited borrowedBlock).workspace.builders.get? "a" = some a ∧
    (edited borrowedBlock).workspace.functions.get? "main" = some main ∧
    a.link main = .error (.fault (.noSymbol ⟨2⟩)) := by
  have hrepeated : ((edited repeatedBlock).workspace.builders.get? "b").bind (fun b =>
      ((edited repeatedBlock).workspace.functions.get? "main").map b.link) =
      some (.error (.fault (.placedTwice "main.1"))) := by
    decide +kernel
  have hborrowed : ((edited borrowedBlock).workspace.builders.get? "a").bind (fun a =>
      ((edited borrowedBlock).workspace.functions.get? "main").map a.link) =
      some (.error (.fault (.noSymbol ⟨2⟩))) := by
    decide +kernel
  obtain ⟨b, hb, hrepeated⟩ := Option.bind_eq_some_iff.mp hrepeated
  obtain ⟨twice, htwice, hrepeated⟩ := Option.map_eq_some_iff.mp hrepeated
  obtain ⟨a, ha, hborrowed⟩ := Option.bind_eq_some_iff.mp hborrowed
  obtain ⟨main, hmain, hborrowed⟩ := Option.map_eq_some_iff.mp hborrowed
  exact ⟨b, twice, a, main, hb, htwice, hrepeated, ha, hmain, hborrowed⟩

/-- The symbol of the borrowed block becomes that of a new function, and the block is linked. -/
def borrowedSymbol : List Edit :=
  borrowedBlock ++ [ .newFunction "a" "late" "late", .link "a" "main" ].map .command

/-- A function has an address that was never linked, nor any value of it. -/
theorem layout_borrowedSymbol : ∃ a late,
    (edited borrowedSymbol).workspace.builders.get? "a" = some a ∧
    (edited borrowedSymbol).workspace.functions.get? "late" = some late ∧
    (late.name, late.symbol) ∈ a.names.functions.entries ∧
    a.symbols.addressOf? late.symbol = some 0 ∧
    (∀ l ∈ (edited borrowedSymbol).linkedInto a.id, l.value.symbol ≠ late.symbol) ∧
    ¬a.LaidOut ((edited borrowedSymbol).linkedInto a.id) := by
  have hsession : ((edited borrowedSymbol).workspace.builders.get? "a").bind (fun a =>
      ((edited borrowedSymbol).workspace.functions.get? "late").map fun late =>
        (decide ((late.name, late.symbol) ∈ a.names.functions.entries),
          a.symbols.addressOf? late.symbol,
          ((edited borrowedSymbol).linkedInto a.id).map fun l =>
            decide (l.value.symbol = late.symbol))) = some (true, some 0, [false]) := by
    decide +kernel
  obtain ⟨a, ha, hsession⟩ := Option.bind_eq_some_iff.mp hsession
  obtain ⟨late, hlate, hsession⟩ := Option.map_eq_some_iff.mp hsession
  simp only [Prod.mk.injEq, decide_eq_true_eq] at hsession
  obtain ⟨hnamed, haddress, hlinked⟩ := hsession
  have hnever : ∀ l ∈ (edited borrowedSymbol).linkedInto a.id, l.value.symbol ≠ late.symbol := by
    intro l hl heq
    have hmem : decide (l.value.symbol = late.symbol) ∈ [false] := by
      rw [← hlinked]
      exact List.mem_map.mpr ⟨l, hl, rfl⟩
    simp [heq] at hmem
  refine ⟨a, late, ha, hlate, hnamed, haddress, hnever, fun hlaid => ?_⟩
  obtain ⟨l, hl, -, hsymbol⟩ := (hlaid.function_resolved _ _ hnamed).mp (by rw [haddress]; rfl)
  exact hnever l hl hsymbol

/-- The same function is refused as one that was linked before. -/
theorem link_borrowedSymbol : ∃ a late,
    (edited borrowedSymbol).workspace.builders.get? "a" = some a ∧
    (edited borrowedSymbol).workspace.functions.get? "late" = some late ∧
    late.builder = a.id ∧ late.linked = false ∧
    (∀ l ∈ (edited borrowedSymbol).linked, l.value.symbol ≠ late.symbol) ∧
    a.link late = .error (.error (.alreadyLinked late.name)) := by
  have hsession : ((edited borrowedSymbol).workspace.builders.get? "a").bind (fun a =>
      ((edited borrowedSymbol).workspace.functions.get? "late").map fun late =>
        (decide (late.builder = a.id), late.linked,
          (edited borrowedSymbol).linked.all fun l => l.value.symbol ≠ late.symbol,
          decide (a.link late = .error (.error (.alreadyLinked late.name))))) =
      some (true, false, true, true) := by
    decide +kernel
  obtain ⟨a, ha, hsession⟩ := Option.bind_eq_some_iff.mp hsession
  obtain ⟨late, hlate, hsession⟩ := Option.map_eq_some_iff.mp hsession
  simp only [Prod.mk.injEq, decide_eq_true_eq, List.all_eq_true] at hsession
  obtain ⟨hown, hopen, hnever, hlink⟩ := hsession
  exact ⟨a, late, ha, hlate, hown, hopen, hnever, hlink⟩

/-- Two functions of one builder exchange their blocks. -/
def exchangedBlocks : List Edit :=
  [ .newBuilder "b" initialCapacity,
    .newFunction "b" "main" "main",
    .newFunction "b" "helper" "helper",
    .appendBlock "b" "main" "entry",
    .appendBlock "b" "helper" "body",
    .copyFunction "main" "spare" ].map .command ++
  [ .assign "main" "entry" "helper" "body",
    .assign "helper" "body" "spare" "entry" ]

/-- Each handle stands for the block of the other function. When the first function is linked, the
symbol of its handle gets no address, and that of the other handle does. -/
theorem handles_exchangedBlocks : ∃ b main entry body block b' main',
    (edited exchangedBlocks).workspace.builders.get? "b" = some b ∧
    (edited exchangedBlocks).workspace.functions.get? "main" = some main ∧
    (edited exchangedBlocks).workspace.refs.get? "entry" = some entry ∧
    (edited exchangedBlocks).workspace.refs.get? "body" = some body ∧
    main.block? entry = some block ∧ block.symbol = body.symbol ∧ block.symbol ≠ entry.symbol ∧
    b.link main = .ok (b', main') ∧ b'.symbols.addressOf? entry.symbol = none ∧
    b'.symbols.addressOf? body.symbol = some 0 := by
  have hsession : ((edited exchangedBlocks).workspace.builders.get? "b").bind (fun b =>
      ((edited exchangedBlocks).workspace.functions.get? "main").bind fun main =>
        ((edited exchangedBlocks).workspace.refs.get? "entry").bind fun entry =>
          ((edited exchangedBlocks).workspace.refs.get? "body").bind fun body =>
            (main.block? entry).bind fun block =>
              (b.link main).toOption.map fun result =>
                (decide (block.symbol = body.symbol), decide (block.symbol = entry.symbol),
                  result.1.symbols.addressOf? entry.symbol,
                  result.1.symbols.addressOf? body.symbol)) =
      some (true, false, none, some 0) := by
    decide +kernel
  obtain ⟨b, hb, hsession⟩ := Option.bind_eq_some_iff.mp hsession
  obtain ⟨main, hmain, hsession⟩ := Option.bind_eq_some_iff.mp hsession
  obtain ⟨entry, hentry, hsession⟩ := Option.bind_eq_some_iff.mp hsession
  obtain ⟨body, hbody, hsession⟩ := Option.bind_eq_some_iff.mp hsession
  obtain ⟨block, hblock, hsession⟩ := Option.bind_eq_some_iff.mp hsession
  obtain ⟨⟨b', main'⟩, hlink, hsession⟩ := Option.map_eq_some_iff.mp hsession
  simp only [Prod.mk.injEq, decide_eq_true_eq, decide_eq_false_iff_not] at hsession
  obtain ⟨hother, hown, hentryAt, hbodyAt⟩ := hsession
  exact ⟨b, main, entry, body, block, b', main', hb, hmain, hentry, hbody, hblock, hother, hown,
    toOption_eq_some.mp hlink, hentryAt, hbodyAt⟩

end Session

end ImageLinker
