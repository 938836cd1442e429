import ImageLinker.Proofs.Placement

/-!
# What an image holds

The image of a builder is the code of the instructions of all functions that were linked into it, in
order, and each reference in it is written as far as the address of its symbol is known. The list of
references that wait is what is left. `Builder.Holds` says this, together with the few facts about
addresses that a link needs to keep it up.

* `Builder.link_eq_ok`: what a function has to be like so that a link succeeds.
* `Builder.link_passes`: the passes of a link that succeeds, each with its result.
* `Builder.Holds.layout_eq`: what the passes over the code make of an image, once all symbols have
  their addresses.
* `Builder.Holds.link_eq`: the builder and the function after a link.
* `Builder.Holds.link`: a link keeps `Builder.Holds`, with the function added at the end.
* `Builder.Holds.of_sameImage`: so does anything that leaves the image alone (`Builder.SameImage`),
  such as new functions and blocks.
-/

namespace ImageLinker

/-- A function that was linked: its value when it was handed over, and the instructions that had
been written into its blocks. -/
structure LinkedFunction where
  value : Function
  text : List (List Instruction)

/-- The instructions of linked functions, in order of functions, of blocks and of writing. -/
def instructionsOf (ls : List LinkedFunction) : List Instruction :=
  ls.flatMap fun l => l.text.flatten

theorem instructionsOf_concat (ls : List LinkedFunction) (f : Function)
    (text : List (List Instruction)) :
    instructionsOf (ls ++ [⟨f, text⟩]) = instructionsOf ls ++ text.flatten := by
  simp [instructionsOf]

/-- The blocks of linked functions, in order of functions and of blocks. -/
def blocksOf (ls : List LinkedFunction) : List Block :=
  ls.flatMap fun l => l.value.blocks.toList

theorem forall₂_blocksOf {ls : List LinkedFunction} (h : ∀ l ∈ ls, l.value.Holds l.text) :
    List.Forall₂ Block.Holds (blocksOf ls) (ls.flatMap LinkedFunction.text) := by
  induction ls with
  | nil => exact .nil
  | cons l ls ih =>
    exact List.rel_append (h l List.mem_cons_self)
      (ih fun m hm => h m (List.mem_cons_of_mem _ hm))

theorem flatten_flatMap_text (ls : List LinkedFunction) :
    (ls.flatMap LinkedFunction.text).flatten = instructionsOf ls := by
  induction ls with
  | nil => rfl
  | cons l ls ih => simp [instructionsOf, ih]

theorem placedFrom_append (start : Nat) (bs cs : List Block) :
    placedFrom start (bs ++ cs) =
      placedFrom start bs ++ placedFrom (start + (bs.map Block.size).sum) cs := by
  induction bs generalizing start with
  | nil => simp [placedFrom]
  | cons b bs ih => simp [placedFrom, ih, Nat.add_assoc]

namespace Builder

/-! ## Links that succeed -/

theorem checkUnlinked_eq_ok {b : Builder} {f : Function} (h : b.checkUnlinked f = .ok ()) :
    f.builder = b.id ∧ f.linked = false ∧ b.symbols.addressOf? f.symbol = none := by
  unfold checkUnlinked at h
  split at h
  · cases h
  rename_i hbuilder
  split at h
  · cases h
  rename_i hlinked
  split at h
  · cases h
  rename_i symbol hsymbol
  split at h
  · cases h
  rename_i hresolved
  have hget := Symbols.get_eq_ok_iff.mp hsymbol
  refine ⟨by simpa using hbuilder, by simpa using hlinked, ?_⟩
  simpa [Symbols.addressOf?, hget, Symbol.isResolved] using hresolved

theorem unknownSymbol?_eq_none_iff {b : Builder} {f : Function} :
    b.unknownSymbol? f = none ↔
      ∀ fixup ∈ f.fixups, (b.symbols.get? fixup.symbol).isSome := by
  simp [unknownSymbol?, Option.isSome_iff_ne_none]

/-- A link that succeeds was asked for an open function of this builder whose references are all
known. -/
theorem link_eq_ok {b b' : Builder} {f f' : Function} (h : b.link f = .ok (b', f')) :
    f.builder = b.id ∧ f.linked = false ∧
      (∀ fixup ∈ f.fixups, (b.symbols.get? fixup.symbol).isSome) ∧ b.place f = .ok (b', f') := by
  unfold link at h
  obtain ⟨u, hcheck, h⟩ := bind_eq_ok h
  obtain ⟨hbuilder, hlinked, -⟩ := checkUnlinked_eq_ok hcheck
  cases hunknown : b.unknownSymbol? f with
  | some id => simp [hunknown] at h
  | none =>
    refine ⟨hbuilder, hlinked, unknownSymbol?_eq_none_iff.mp hunknown, ?_⟩
    rw [hunknown] at h
    cases hplace : b.place f with
    | error fault => simp [hplace, Except.mapError] at h
    | ok result => simpa [hplace, Except.mapError] using h

/-- The passes of a link that succeeds, and what they leave alone. -/
theorem link_passes {b b' : Builder} {f f' : Function} (h : b.link f = .ok (b', f')) :
    ∃ symbols stop layout,
      b.symbols.place b.code.size f.blocks.toList = .ok (symbols, stop) ∧
      symbols.resolve f.symbol b.code.size (stop - b.code.size) = .ok b'.symbols ∧
      f.blocks.toList.foldlM (Layout.append b'.symbols)
        { code := b.code, pending := b.pending } = .ok layout ∧
      patch b'.symbols layout.code layout.pending = .ok (b'.code, b'.pending) ∧
      b' = { b with code := b'.code, symbols := b'.symbols, pending := b'.pending } ∧
      f' = { f with blocks := layout.blocks, linked := true } := by
  obtain ⟨-, -, -, hplace⟩ := link_eq_ok h
  unfold place at hplace
  obtain ⟨⟨symbols, stop⟩, hblocks, hplace⟩ := bind_eq_ok hplace
  obtain ⟨symbols', hresolve, hplace⟩ := bind_eq_ok hplace
  obtain ⟨layout, hlayout, hplace⟩ := bind_eq_ok hplace
  obtain ⟨⟨code, pending⟩, hpatch, hplace⟩ := bind_eq_ok hplace
  cases hplace
  exact ⟨symbols, stop, layout, hblocks, hresolve, hlayout, hpatch, rfl, rfl⟩

theorem linked_link {b b' : Builder} {f f' : Function} (h : b.link f = .ok (b', f')) :
    f'.linked = true ∧ b'.id = b.id := by
  obtain ⟨_, _, layout, -, -, -, -, hb', hf'⟩ := link_passes h
  exact ⟨by rw [hf'], by rw [hb']⟩

/-! ## Changes outside of the image -/

/-- Two states of a builder with the same image: nothing was linked between them, though functions
and blocks may have been created. -/
structure SameImage (b b' : Builder) : Prop where
  id : b'.id = b.id
  code : b'.code = b.code
  pending : b'.pending = b.pending
  address : ∀ id, b'.symbols.addressOf? id = b.symbols.addressOf? id
  grows : b.symbols.Grows b'.symbols

theorem SameImage.refl (b : Builder) : b.SameImage b :=
  ⟨rfl, rfl, rfl, fun _ => rfl, Symbols.Grows.refl _⟩

theorem SameImage.push (b : Builder) (name : String) (names : Names) :
    b.SameImage { b with symbols := b.symbols.push name, names } :=
  ⟨rfl, rfl, rfl, Symbols.addressOf?_push _ _, Symbols.grows_push _ _⟩

/-- A new function that is refused leaves the builder alone, or leaves a symbol behind. -/
theorem newFunction_cases {b b' : Builder} {name : String} {result : Except BuildError Function}
    (h : b.newFunction name = (result, b')) :
    ((∃ e, result = .error e) ∧ (b' = b ∨ b' = { b with symbols := b.symbols.push name })) ∨
      ∃ functions, b.names.functions.insert name b.symbols.nextId = .ok functions ∧
        result = .ok { name, symbol := b.symbols.nextId, builder := b.id } ∧
        b' = { b with
          symbols := b.symbols.push name
          names := { b.names with functions } } := by
  unfold newFunction at h
  split at h
  · cases h
    exact .inl ⟨⟨_, rfl⟩, .inl rfl⟩
  · simp only at h
    split at h
    · cases h
      exact .inl ⟨⟨_, rfl⟩, .inr rfl⟩
    · rename_i functions hinsert
      cases h
      exact .inr ⟨functions, hinsert, rfl, rfl⟩

/-- A new block that is refused leaves the builder alone, or leaves a symbol behind. -/
theorem appendBlock_cases {b b' : Builder} {f : Function}
    {result : Except Failure (BlockRef × Function)} (h : b.appendBlock f = (result, b')) :
    ((∃ e, result = .error e) ∧
        (b' = b ∨ b' = { b with symbols := b.symbols.push f.nextLabel })) ∨
      ∃ labels, b.checkUnlinked f = .ok () ∧
        b.names.labels.insert f.nextLabel b.symbols.nextId = .ok labels ∧
        result = .ok (f.nextRef b.symbols.nextId, f.pushBlock b.symbols.nextId) ∧
        b' = { b with
          symbols := b.symbols.push f.nextLabel
          names := { b.names with labels } } := by
  unfold appendBlock at h
  split at h
  · cases h
    exact .inl ⟨⟨_, rfl⟩, .inl rfl⟩
  · rename_i hcheck
    simp only at h
    split at h
    · cases h
      exact .inl ⟨⟨_, rfl⟩, .inr rfl⟩
    · rename_i labels hinsert
      cases h
      exact .inr ⟨labels, hcheck, hinsert, rfl, rfl⟩

theorem sameImage_newFunction {b b' : Builder} {name : String} {result : Except BuildError Function}
    (h : b.newFunction name = (result, b')) : b.SameImage b' := by
  rcases newFunction_cases h with ⟨-, rfl | rfl⟩ | ⟨functions, -, -, rfl⟩
  · exact .refl _
  · exact .push b name b.names
  · exact .push b name _

theorem sameImage_appendBlock {b b' : Builder} {f : Function}
    {result : Except Failure (BlockRef × Function)} (h : b.appendBlock f = (result, b')) :
    b.SameImage b' := by
  rcases appendBlock_cases h with ⟨-, rfl | rfl⟩ | ⟨labels, -, -, -, rfl⟩
  · exact .refl _
  · exact .push b f.nextLabel b.names
  · exact .push b f.nextLabel _

theorem newFunction_eq_ok {b b' : Builder} {name : String} {f : Function}
    (h : b.newFunction name = (.ok f, b')) :
    f = { name, symbol := b.symbols.nextId, builder := b.id } := by
  rcases newFunction_cases h with ⟨⟨e, he⟩, -⟩ | ⟨functions, -, hresult, -⟩
  · cases he
  · exact Except.ok.inj hresult

theorem appendBlock_eq_ok {b b' : Builder} {f f' : Function} {r : BlockRef}
    (h : b.appendBlock f = (.ok (r, f'), b')) :
    b.checkUnlinked f = .ok () ∧ f' = f.pushBlock b.symbols.nextId := by
  rcases appendBlock_cases h with ⟨⟨e, he⟩, -⟩ | ⟨labels, hcheck, -, hresult, -⟩
  · cases he
  · exact ⟨hcheck, congrArg Prod.snd (Except.ok.inj hresult)⟩

/-! ## The invariant -/

/-- A builder into which exactly these functions were linked, in this order. -/
structure Holds (b : Builder) (ls : List LinkedFunction) : Prop where
  /-- Every function was open when it was handed over. -/
  texts : ∀ l ∈ ls, l.value.Holds l.text
  /-- References are written as far as addresses are known. -/
  code : b.code = (codeAt b.symbols.valueOf (instructionsOf ls)).toArray
  /-- The others wait. -/
  pending : b.pending = (fixupsFrom 0 (instructionsOf ls)).filter b.symbols.isWaiting
  /-- No reference leads out of the arena. -/
  known : ∀ f ∈ fixupsFrom 0 (instructionsOf ls), (b.symbols.get? f.symbol).isSome
  code_lt : b.code.size < addressLimit
  address_le : ∀ id a, b.symbols.addressOf? id = some a → a ≤ b.code.size
  /-- Every block stands at the address of its symbol. -/
  placed : ∀ p ∈ placedFrom 0 (blocksOf ls), b.symbols.addressOf? p.2.symbol = some p.1

theorem Holds.empty (id : BuilderId) : Holds { id } [] where
  texts := by simp
  code := rfl
  pending := rfl
  known := by simp [instructionsOf, fixupsFrom]
  code_lt := by simp [addressLimit]
  address_le := by simp
  placed := by simp [blocksOf, placedFrom]

namespace Holds

variable {b b' : Builder} {ls : List LinkedFunction} {f f' : Function}
  {text : List (List Instruction)}

/-- What leaves the image, the references that wait and all addresses alone keeps the invariant. -/
theorem of_sameImage (h : b.Holds ls) (hsame : b.SameImage b') : b'.Holds ls := by
  have hvalue : b'.symbols.valueOf = b.symbols.valueOf := by
    funext id
    rw [Symbols.valueOf, Symbols.valueOf, hsame.address]
  have hwaiting : b'.symbols.isWaiting = b.symbols.isWaiting := by
    funext f
    rw [Symbols.isWaiting, Symbols.isWaiting, hsame.address]
  constructor
  case texts => exact h.texts
  case code => rw [hsame.code, hvalue, h.code]
  case pending => rw [hsame.pending, hwaiting, h.pending]
  case known => exact fun f hf => hsame.grows.isSome (h.known f hf)
  case code_lt => rw [hsame.code]; exact h.code_lt
  case address_le =>
    intro id a ha
    rw [hsame.address] at ha
    rw [hsame.code]
    exact h.address_le id a ha
  case placed =>
    intro p hp
    rw [hsame.address]
    exact h.placed p hp

theorem size_code (h : b.Holds ls) : b.code.size = codeSize (instructionsOf ls) := by
  rw [h.code, List.size_toArray, length_codeAt]

/-- The fixups of the instructions of a function are those of its blocks, so the arena knows their
symbols. -/
theorem known_of_link (hf : f.Holds text) {symbols : Symbols}
    (hknown : ∀ fixup ∈ f.fixups, (symbols.get? fixup.symbol).isSome) {start : Nat} {g : Fixup}
    (hg : g ∈ fixupsFrom start text.flatten) : (symbols.get? g.symbol).isSome := by
  rw [← placedFrom_fixups hf] at hg
  obtain ⟨p, hp, hg⟩ := List.mem_flatMap.mp hg
  obtain ⟨fixup, hfixup, rfl⟩ := List.mem_map.mp hg
  exact hknown fixup (List.mem_flatMap.mpr ⟨p.2, (placedFrom_bounds hp).1, hfixup⟩)

/-- The second and the third pass. There has to be room for the function, and all that it refers to
has to be in the arena that the first pass left; then image and references are what this arena makes
of the instructions so far, those of the function included. -/
theorem layout_eq (h : b.Holds ls) (hf : f.Holds text) {symbols : Symbols}
    (hgrows : b.symbols.Grows symbols)
    (hknown : ∀ fixup ∈ f.fixups, (symbols.get? fixup.symbol).isSome)
    (hfits : b.code.size + codeSize text.flatten < addressLimit) :
    ∃ layout, f.blocks.toList.foldlM (Layout.append symbols)
        { code := b.code, pending := b.pending } = .ok layout ∧
      layout.blocks = (f.blocks.toList.map (Block.linked symbols)).toArray ∧
      patch symbols layout.code layout.pending =
        .ok ((codeAt symbols.valueOf (instructionsOf ls ++ text.flatten)).toArray,
          (fixupsFrom 0 (instructionsOf ls ++ text.flatten)).filter symbols.isWaiting) := by
  have hlayout := foldlM_layoutAppend symbols hf { code := b.code, pending := b.pending }
    (fun block hblock fixup hfixup => hknown fixup
      (List.mem_flatMap.mpr ⟨block, hblock, Array.mem_toList_iff.mpr hfixup⟩)) hfits
  -- The third pass serves what waited before and what has joined it.
  have hserved := patch_codeAt hgrows.extends (instructionsOf ls) text.flatten
    (by
      intro g hg
      rw [fixupsFrom_append] at hg
      rcases List.mem_append.mp hg with hg | hg
      · exact hgrows.isSome (h.known g hg)
      · exact known_of_link hf hknown hg)
  refine ⟨_, hlayout, by simp, ?_⟩
  simp only [h.size_code, h.pending]
  rw [h.code, List.append_toArray, hserved]

/-- **One link.** Blocks and function are placed behind the image, and then image and references are
what the new arena makes of the instructions so far, those of the function included. -/
theorem link_eq (h : b.Holds ls) (hf : f.Holds text) (hlink : b.link f = .ok (b', f')) :
    ∃ symbols stop, b.symbols.Placing b.code.size f.blocks.toList symbols stop ∧
      symbols.resolve f.symbol b.code.size (stop - b.code.size) = .ok b'.symbols ∧
      b' = { b with
        code := (codeAt b'.symbols.valueOf (instructionsOf ls ++ text.flatten)).toArray
        symbols := b'.symbols
        pending := (fixupsFrom 0 (instructionsOf ls ++ text.flatten)).filter
          b'.symbols.isWaiting } ∧
      f' = { f with
        blocks := (f.blocks.toList.map (Block.linked b'.symbols)).toArray
        linked := true } := by
  obtain ⟨-, -, hknown, -⟩ := link_eq_ok hlink
  obtain ⟨symbols, stop, layout, hblocks, hresolve, hlayout, hpatch, hb', hf'⟩ := link_passes hlink
  have hplacing := Symbols.place_eq_ok hblocks
  have hgrows := hplacing.grows.trans (Symbols.grows_resolve hresolve)
  -- There is room for the blocks, since the first pass found all their ends.
  have hstop := hplacing.stop_lt h.code_lt
  rw [hplacing.stop_eq, sum_size_of_holds hf] at hstop
  obtain ⟨layout', hlayout', hlinked, hserved⟩ := h.layout_eq hf hgrows
    (fun fixup hfixup => hgrows.isSome (hknown fixup hfixup)) hstop
  rw [hlayout', Except.ok.injEq] at hlayout
  subst hlayout
  rw [hserved, Except.ok.injEq, Prod.mk.injEq] at hpatch
  rw [hlinked] at hf'
  rw [← hpatch.1, ← hpatch.2] at hb'
  exact ⟨symbols, stop, hplacing, hresolve, hb', hf'⟩

/-- The image grows by the bytes of the function, so it ends where the last block does. -/
theorem size_link (h : b.Holds ls) (hf : f.Holds text) (hlink : b.link f = .ok (b', f')) :
    b'.code.size = b.code.size + (f.blocks.toList.map Block.size).sum := by
  obtain ⟨-, -, -, -, hb', -⟩ := h.link_eq hf hlink
  rw [hb', List.size_toArray, length_codeAt, codeSize_append, ← h.size_code, sum_size_of_holds hf]

/-- **A link keeps the invariant.** The function joins the history at its end. -/
theorem link (h : b.Holds ls) (hf : f.Holds text) (hlink : b.link f = .ok (b', f')) :
    b'.Holds (ls ++ [⟨f, text⟩]) := by
  obtain ⟨symbols, stop, hplacing, hresolve, hb', -⟩ := h.link_eq hf hlink
  obtain ⟨-, -, hknown, -⟩ := link_eq_ok hlink
  have hgrows := hplacing.grows.trans (Symbols.grows_resolve hresolve)
  have hblocks : blocksOf (ls ++ [⟨f, text⟩]) = blocksOf ls ++ f.blocks.toList := by
    simp [blocksOf]
  have hcode : b'.code =
      (codeAt b'.symbols.valueOf (instructionsOf ls ++ text.flatten)).toArray := by rw [hb']
  have hpending : b'.pending =
      (fixupsFrom 0 (instructionsOf ls ++ text.flatten)).filter b'.symbols.isWaiting := by
    rw [hb']
  have hsize : b'.code.size = stop := by rw [h.size_link hf hlink, hplacing.stop_eq]
  have hbase : b.code.size ≤ stop := by
    rw [hplacing.stop_eq]
    exact Nat.le_add_right _ _
  constructor
  case texts =>
    intro l hl
    rcases List.mem_append.mp hl with hl | hl
    · exact h.texts l hl
    · rw [List.mem_singleton.mp hl]
      exact hf
  case code => rw [instructionsOf_concat, hcode]
  case pending => rw [instructionsOf_concat, hpending]
  case known =>
    intro g hg
    rw [instructionsOf_concat, fixupsFrom_append] at hg
    rcases List.mem_append.mp hg with hg | hg
    · exact hgrows.isSome (h.known g hg)
    · exact hgrows.isSome (known_of_link hf hknown hg)
  case code_lt =>
    rw [hsize]
    exact hplacing.stop_lt h.code_lt
  case address_le =>
    intro id a ha
    rw [hsize]
    by_cases hid : id = f.symbol
    · rw [hid, Symbols.addressOf?_resolve hresolve, Option.some.injEq] at ha
      omega
    · rw [Symbols.addressOf?, Symbols.get?_resolve_of_ne hresolve hid] at ha
      rcases hplacing.addressOf?_cases ha with hold | ⟨p, hp, rfl⟩
      · have hle := h.address_le id a hold
        omega
      · have hbounds := (placedFrom_bounds hp).2.2
        rw [← hplacing.stop_eq] at hbounds
        omega
  case placed =>
    intro p hp
    rw [hblocks, placedFrom_append] at hp
    rcases List.mem_append.mp hp with hp | hp
    · exact hgrows.extends _ _ (h.placed p hp)
    · have hstart : 0 + ((blocksOf ls).map Block.size).sum = b.code.size := by
        rw [Nat.zero_add, sum_size_of_holds (forall₂_blocksOf h.texts), flatten_flatMap_text,
          h.size_code]
      rw [hstart] at hp
      exact (Symbols.grows_resolve hresolve).extends _ _ (hplacing.placed p hp)

end Holds

end Builder

end ImageLinker
