import ImageLinker.Proofs.Tiling

/-!
# Linking does not fault

A builder looks up symbols without asking whether they are there, gives addresses without asking
whether there are any, and writes at offsets without asking whether they lie in the code. One check
at the start stands for all of this: that the function is of this builder, and that its symbol has
no address. Here is why that is enough in a session. What is of this builder is registered with it,
blocks and all, so every symbol is in the arena; and a block has an address only when its function
has one, so the first pass finds no symbol that is placed already. The fixups are those of whole
instructions, and all sums stay below the end of the image.

* `Symbols.exists_place`: the first pass goes through.
* `Builder.exists_place`: so do all three.
* `Session.answers_after`: in every session, whatever function is handed to whatever builder is
  accepted or refused with an error, and it is accepted exactly if it is open and all that it refers
  to is known.
-/

namespace ImageLinker

/-- A result if the condition holds, and an error if it does not; never a fault. -/
def Answers {α : Type} (condition : Prop) (answer : Except Failure α) : Prop :=
  (condition ∧ ∃ a, answer = .ok a) ∨ (¬condition ∧ ∃ e, answer = .error (.error e))

theorem Function.size_eq (f : Function) : f.size = (f.blocks.toList.map Block.size).sum := by
  rw [Function.size, List.sum, List.foldr_map]

/-! ## The first pass -/

namespace Symbols

/-- A symbol of the arena that has no address. -/
def IsOpen (s : Symbols) (id : SymbolId) : Prop :=
  ∃ symbol, s.get? id = some symbol ∧ symbol.address = none

theorem isOpen_iff {s : Symbols} {id : SymbolId} :
    s.IsOpen id ↔ (s.get? id).isSome ∧ s.addressOf? id = none := by
  unfold IsOpen addressOf?
  cases s.get? id <;> simp

theorem exists_resolve {s : Symbols} {id : SymbolId} (h : s.IsOpen id) (address size : Nat) :
    ∃ t, s.resolve id address size = .ok t := by
  obtain ⟨symbol, hs, haddress⟩ := h
  have hlt : id.index < s.size := by
    by_contra hle
    rw [get?_eq_none_iff.mpr (Nat.le_of_not_lt hle)] at hs
    cases hs
  have hget := get_eq_ok_iff.mpr hs
  simp [resolve, hget, bind, Except.bind, Symbol.isResolved, haddress, set, hlt]

/-- Blocks of other symbols are still open when one was placed. -/
theorem isOpen_of_resolve {s t : Symbols} {id : SymbolId} {address size : Nat} {blocks : List Block}
    (h : s.resolve id address size = .ok t) (hid : id ∉ blocks.map Block.symbol)
    (hopen : ∀ block ∈ blocks, s.IsOpen block.symbol) :
    ∀ block ∈ blocks, t.IsOpen block.symbol := by
  intro block hblock
  have hne : block.symbol ≠ id := by
    intro heq
    exact hid (List.mem_map.mpr ⟨block, hblock, heq⟩)
  show ∃ symbol, _
  rw [get?_resolve_of_ne h hne]
  exact hopen block hblock

/-- The first pass. Induction on the blocks, which share no symbol. -/
theorem exists_place {s : Symbols} {cursor : Nat} {blocks : List Block}
    (hopen : ∀ block ∈ blocks, s.IsOpen block.symbol) (hnodup : (blocks.map Block.symbol).Nodup)
    (hfits : cursor + (blocks.map Block.size).sum < addressLimit) :
    ∃ t stop, s.place cursor blocks = .ok (t, stop) := by
  induction blocks generalizing s cursor with
  | nil => exact ⟨s, cursor, rfl⟩
  | cons block rest ih =>
    rw [List.map_cons, List.nodup_cons] at hnodup
    rw [List.map_cons, List.sum_cons] at hfits
    obtain ⟨s₁, hresolve⟩ := exists_resolve (hopen block List.mem_cons_self) cursor block.size
    have hnext : addAddress cursor block.size = .ok (cursor + block.size) := by
      rw [addAddress, if_pos (by omega)]
    have hopen₁ := isOpen_of_resolve hresolve hnodup.1 fun other hother =>
      hopen other (List.mem_cons_of_mem _ hother)
    have hrest : cursor + block.size + (rest.map Block.size).sum < addressLimit := by omega
    obtain ⟨t, stop, hplace⟩ := ih hopen₁ hnodup.2 hrest
    refine ⟨t, stop, ?_⟩
    rw [place, hresolve]
    show (addAddress cursor block.size >>= fun next => s₁.place next rest) = _
    rw [hnext]
    exact hplace

end Symbols

/-! ## Functions that can grow and be linked -/

/-- A function of this builder that has no place in the image yet. -/
structure Function.OpenIn (f : Function) (b : Builder) : Prop where
  builder : f.builder = b.id
  linked : f.linked = false
  unplaced : b.symbols.addressOf? f.symbol = none

namespace Builder

variable {b : Builder} {ls : List LinkedFunction} {f : Function} {text : List (List Instruction)}

/-- The blocks of an open function are open: a link that placed one of them has placed the function,
or a copy of it, and so its symbol. -/
theorem Placed.isOpen_block (h : b.Placed ls) (hnames : b.NamesSound)
    (hlinked : ∀ l ∈ ls, l.value.KnownTo b) (hf : f.KnownTo b)
    (hunplaced : b.symbols.addressOf? f.symbol = none) {block : Block} (hblock : block ∈ f.blocks) :
    b.symbols.IsOpen block.symbol := by
  obtain ⟨k, hk⟩ := mem_blocks_iff.mp ⟨block, hblock, rfl⟩
  have hentry := hf.labels k _ hk
  rw [Symbols.isOpen_iff]
  refine ⟨hnames.labels.isSome hentry, ?_⟩
  by_contra hplaced
  obtain ⟨l, hl, k', -, hk'⟩ := ((h.laidOut hnames hlinked).block_resolved _ _ hentry).mp
    (Option.isSome_iff_ne_none.mpr hplaced)
  have hsymbol := (hf.symbol_eq (hlinked l hl) hk hk').1
  have hfunction := (h.resolved f.symbol).mpr ⟨l, hl, .inl hsymbol.symm⟩
  rw [hunplaced] at hfunction
  cases hfunction

/-- **All three passes.** Beyond what was checked, all that has to be known of the function is that
there is room for it. -/
theorem exists_place (h : b.Holds ls) (hplaced : b.Placed ls) (hnames : b.NamesSound)
    (hlinked : ∀ l ∈ ls, l.value.KnownTo b) (hf : f.Holds text) (hregistered : f.KnownTo b)
    (hunplaced : b.symbols.addressOf? f.symbol = none)
    (hknown : ∀ fixup ∈ f.fixups, (b.symbols.get? fixup.symbol).isSome)
    (hfits : b.code.size + f.size < addressLimit) : ∃ r, b.place f = .ok r := by
  rw [Function.size_eq] at hfits
  obtain ⟨symbols, stop, hblocks⟩ := Symbols.exists_place
    (fun block hblock => hplaced.isOpen_block hnames hlinked hregistered hunplaced
      (Array.mem_toList_iff.mp hblock)) hregistered.blocks_nodup hfits
  have hplacing := Symbols.place_eq_ok hblocks
  -- No block has the symbol of the function, so that one is still open.
  have hopen : symbols.IsOpen f.symbol := by
    have hother : symbols.get? f.symbol = b.symbols.get? f.symbol := by
      refine hplacing.others f.symbol fun block hblock heq => ?_
      obtain ⟨k, hk⟩ := mem_blocks_iff.mp ⟨block, Array.mem_toList_iff.mp hblock, heq⟩
      exact hnames.disjoint _ _ _ hregistered.name (hregistered.labels k _ hk)
    rw [Symbols.isOpen_iff, Symbols.addressOf?, hother]
    exact ⟨hnames.functions.isSome hregistered.name, hunplaced⟩
  obtain ⟨symbols', hresolve⟩ :=
    Symbols.exists_resolve hopen b.code.size (stop - b.code.size)
  have hgrows := hplacing.grows.trans (Symbols.grows_resolve hresolve)
  rw [sum_size_of_holds hf] at hfits
  obtain ⟨layout, hlayout, -, hserved⟩ := h.layout_eq hf hgrows
    (fun fixup hfixup => hgrows.isSome (hknown fixup hfixup)) hfits
  simp only [place, hblocks, hresolve, hlayout, hserved, bind, Except.bind, pure, Except.pure]
  exact ⟨_, rfl⟩

/-! ## Answers -/

theorem answers_checkUnlinked
    (hknown : f.builder = b.id → (b.symbols.get? f.symbol).isSome) :
    Answers (f.OpenIn b) (b.checkUnlinked f) := by
  unfold checkUnlinked
  split
  · rename_i hforeign
    exact .inr ⟨fun h => hforeign h.builder, _, rfl⟩
  rename_i hbuilder
  have hbuilder : f.builder = b.id := by simpa using hbuilder
  split
  · rename_i hlinked
    exact .inr ⟨fun h => by simp [h.linked] at hlinked, _, rfl⟩
  rename_i hlinked
  obtain ⟨symbol, hsymbol⟩ := Option.isSome_iff_exists.mp (hknown hbuilder)
  rw [Symbols.get_eq_ok_iff.mpr hsymbol]
  have haddress : b.symbols.addressOf? f.symbol = symbol.address := by
    rw [Symbols.addressOf?, hsymbol, Option.bind_some]
  cases hcase : symbol.address with
  | some a =>
    right
    constructor
    · intro h
      rw [h.unplaced, hcase] at haddress
      cases haddress
    · exact ⟨.alreadyLinked f.name, by simp [Symbol.isResolved, hcase]⟩
  | none =>
    left
    constructor
    · exact ⟨hbuilder, by simpa using hlinked, by rw [haddress, hcase]⟩
    · exact ⟨(), by simp [Symbol.isResolved, hcase]⟩

/-- A new block is refused for its label only if the label is taken, never for its symbol. -/
theorem answers_appendBlock (hnames : b.NamesSound)
    (hcheck : Answers (f.OpenIn b) (b.checkUnlinked f)) :
    Answers (f.OpenIn b ∧ f.nextLabel ∉ b.names.labels.entries.map Prod.fst)
      (b.appendBlock f).1 := by
  rcases hcheck with ⟨hopen, u, hcheck⟩ | ⟨hclosed, e, hcheck⟩
  · have hfresh : b.symbols.nextId ∉ b.names.labels.entries.map Prod.snd := by
      intro hmem
      obtain ⟨⟨label, id⟩, hentry, hid⟩ := List.mem_map.mp hmem
      exact hnames.labels.ne_nextId hentry hid
    by_cases htaken : f.nextLabel ∈ b.names.labels.entries.map Prod.fst
    · right
      refine ⟨fun h => h.2 htaken, .duplicateSymbol f.nextLabel, ?_⟩
      simp [appendBlock, hcheck, NameTable.insert, htaken]
    · left
      refine ⟨⟨hopen, htaken⟩, ?_⟩
      simp only [appendBlock, hcheck, NameTable.insert, htaken, hfresh, or_self, dite_false]
      exact ⟨_, rfl⟩
  · right
    refine ⟨fun h => hclosed h.1, e, ?_⟩
    simp only [appendBlock, hcheck]

theorem answers_link (hcheck : Answers (f.OpenIn b) (b.checkUnlinked f))
    (hplace : f.OpenIn b → (∀ fixup ∈ f.fixups, (b.symbols.get? fixup.symbol).isSome) →
      ∃ r, b.place f = .ok r) :
    Answers (f.OpenIn b ∧ ∀ fixup ∈ f.fixups, (b.symbols.get? fixup.symbol).isSome)
      (b.link f) := by
  rcases hcheck with ⟨hopen, u, hcheck⟩ | ⟨hclosed, e, hcheck⟩
  · cases hunknown : b.unknownSymbol? f with
    | some id =>
      right
      constructor
      · rintro ⟨-, hknown⟩
        rw [unknownSymbol?_eq_none_iff.mpr hknown] at hunknown
        cases hunknown
      · exact ⟨.unknownSymbol id, by simp [link, hcheck, hunknown, bind, Except.bind]⟩
    | none =>
      left
      have hknown := unknownSymbol?_eq_none_iff.mp hunknown
      obtain ⟨r, hplaced⟩ := hplace hopen hknown
      refine ⟨⟨hopen, hknown⟩, r, ?_⟩
      simp [link, hcheck, hunknown, hplaced, bind, Except.bind, Except.mapError]
  · right
    refine ⟨fun h => hclosed h.1, e, ?_⟩
    simp [link, hcheck, bind, Except.bind]

end Builder

/-! ## Sessions -/

namespace Session

/-- **Linking does not fault.** After any commands, each function may be handed to each builder: to
get a block, which succeeds if the function is open and the label is free, and to be linked, which
succeeds if it is open and all that it refers to is known. All else is answered with an error. A
link asks for room: the bytes of the image and of the function together have to be addressable. -/
theorem answers_after (cs : List Command) (builder function : String) (b : Builder) (f : Function)
    (hb : (after cs).workspace.builders.get? builder = some b)
    (hf : (after cs).workspace.functions.get? function = some f) :
    Answers (f.OpenIn b ∧ f.nextLabel ∉ b.names.labels.entries.map Prod.fst)
        (b.appendBlock f).1 ∧
      (b.code.size + f.size < addressLimit →
        Answers (f.OpenIn b ∧ ∀ fixup ∈ f.fixups, (b.symbols.get? fixup.symbol).isSome)
          (b.link f)) := by
  have hnames := (registered_after cs).names builder b hb
  have hregistered := (registered_after cs).known builder b f hb (.inl ⟨function, hf⟩)
  have hcheck := Builder.answers_checkUnlinked fun hbuilder =>
    hnames.functions.isSome (hregistered hbuilder).name
  refine ⟨Builder.answers_appendBlock hnames hcheck, fun hfits => ?_⟩
  refine Builder.answers_link hcheck fun hopen hknown => ?_
  exact Builder.exists_place (holds_after cs hb) (placed_after cs hb) hnames
    (fun l hl => knownTo_of_linkedInto cs hb hl)
    (functionsSound_after cs function f hf hopen.linked) (hregistered hopen.builder) hopen.unplaced
    hknown hfits

end Session

end ImageLinker
