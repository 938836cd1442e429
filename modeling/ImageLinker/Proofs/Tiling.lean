import ImageLinker.Proofs.References
import ImageLinker.Proofs.Registration

/-!
# The layout of an image

The functions that were linked lie in the image one behind the other, and so do the blocks within
each of them. An address is given to a symbol by the one link that places it, and to no other
symbol: a function that waits for its link has none, and neither have blocks that only some copy of
a linked function has.

* `Builder.Placed`: what the addresses and sizes in the arena say about linked functions; it is kept
  by links (`Builder.Placed.link`) and by all that leaves the image alone.
* `Session.laidOut_after`: the layout in every session, in terms of functions and blocks, and that
  it stays as it is in all that follows.
-/

namespace ImageLinker

theorem Symbols.Grows.size_eq {s t : Symbols} (h : s.Grows t) {id : SymbolId} {n : Nat}
    (haddress : (s.addressOf? id).isSome) (hsize : (s.get? id).map Symbol.size = some n) :
    (t.get? id).map Symbol.size = some n := by
  obtain ⟨a, ha⟩ := Option.isSome_iff_exists.mp haddress
  obtain ⟨symbol, hsymbol, ha⟩ := Option.bind_eq_some_iff.mp ha
  rw [h.get?_eq hsymbol ha, ← hsymbol]
  exact hsize

namespace Builder

/-- The places of the functions that were linked, in order, and of their blocks. -/
structure Placed (b : Builder) (ls : List LinkedFunction) : Prop where
  /-- The functions fill the image. -/
  functions : b.symbols.Tile 0 b.code.size (ls.map fun l => l.value.symbol)
  /-- The blocks of a function fill its place. -/
  blocks : ∀ l ∈ ls, ∃ symbol a, b.symbols.get? l.value.symbol = some symbol ∧
    symbol.address = some a ∧
    b.symbols.Tile a (a + symbol.size) (l.value.blocks.toList.map Block.symbol)
  sized : ∀ l ∈ ls, ∀ block ∈ l.value.blocks,
    (b.symbols.get? block.symbol).map Symbol.size = some block.size
  /-- No other symbol has an address. -/
  resolved : ∀ id, (b.symbols.addressOf? id).isSome ↔
    ∃ l ∈ ls, l.value.symbol = id ∨ ∃ block ∈ l.value.blocks, block.symbol = id
  /-- No function was linked twice. -/
  nodup : (ls.map fun l => l.value.symbol).Nodup

namespace Placed

variable {b b' : Builder} {ls : List LinkedFunction} {f f' : Function}
  {text : List (List Instruction)}

theorem empty (id : BuilderId) : Placed { id } [] where
  functions := rfl
  blocks := by simp
  sized := by simp
  resolved := by simp
  nodup := by simp

theorem of_sameImage (h : b.Placed ls) (hsame : b.SameImage b') : b'.Placed ls := by
  constructor
  case functions =>
    rw [hsame.code]
    exact h.functions.of_grows hsame.grows
  case blocks =>
    intro l hl
    obtain ⟨symbol, a, hsymbol, ha, htile⟩ := h.blocks l hl
    exact ⟨symbol, a, hsame.grows.get?_eq hsymbol ha, ha, htile.of_grows hsame.grows⟩
  case sized =>
    intro l hl block hblock
    have haddress := (h.resolved block.symbol).mpr ⟨l, hl, .inr ⟨block, hblock, rfl⟩⟩
    exact hsame.grows.size_eq haddress (h.sized l hl block hblock)
  case resolved =>
    intro id
    rw [hsame.address]
    exact h.resolved id
  case nodup => exact h.nodup

/-- **A link places one function.** Its blocks fill the stretch behind the image, and the function
takes all of it. -/
theorem link (h : b.Placed ls) (hlink : b.link f = .ok (b', f'))
    (hsize : b'.code.size = b.code.size + (f.blocks.toList.map Block.size).sum) :
    b'.Placed (ls ++ [⟨f, text⟩]) := by
  obtain ⟨symbols, stop, _, hblocks, hresolve, -, -, -, -⟩ := link_passes hlink
  have hplacing := Symbols.place_eq_ok hblocks
  rw [← hplacing.stop_eq] at hsize
  have hbase : b.code.size ≤ stop := by
    rw [hplacing.stop_eq]
    exact Nat.le_add_right _ _
  have hlast := Symbols.grows_resolve hresolve
  have hgrows := hplacing.grows.trans hlast
  obtain ⟨symbol, hsymbol, haddress, hsymbolSize⟩ := Symbols.get?_resolve hresolve
  have hstop : b.code.size + symbol.size = stop := by omega
  have hblock : ∀ block ∈ f.blocks, (symbols.addressOf? block.symbol).isSome := by
    intro block hblock
    obtain ⟨a, ha⟩ := exists_mem_placedFrom b.code.size (Array.mem_toList_iff.mpr hblock)
    rw [hplacing.placed _ ha]
    rfl
  constructor
  case functions =>
    rw [List.map_append, hsize]
    exact (h.functions.of_grows hgrows).append ⟨symbol, hsymbol, haddress, hstop⟩
  case blocks =>
    intro l hl
    rcases List.mem_append.mp hl with hl | hl
    · obtain ⟨symbol, a, hsymbol, ha, htile⟩ := h.blocks l hl
      exact ⟨symbol, a, hgrows.get?_eq hsymbol ha, ha, htile.of_grows hgrows⟩
    · rw [List.mem_singleton.mp hl]
      refine ⟨symbol, b.code.size, hsymbol, haddress, ?_⟩
      rw [hstop]
      exact hplacing.tile.of_grows hlast
  case sized =>
    intro l hl block hmem
    rcases List.mem_append.mp hl with hl | hl
    · have haddress := (h.resolved block.symbol).mpr ⟨l, hl, .inr ⟨block, hmem, rfl⟩⟩
      exact hgrows.size_eq haddress (h.sized l hl block hmem)
    · rw [List.mem_singleton.mp hl] at hmem
      exact hlast.size_eq (hblock block hmem)
        (hplacing.sized block (Array.mem_toList_iff.mpr hmem))
  case resolved =>
    intro id
    constructor
    · -- What is neither the function nor one of its blocks had its address before.
      intro hsome
      by_cases hid : id = f.symbol
      · exact ⟨⟨f, text⟩, by simp, .inl hid.symm⟩
      by_cases hmem : ∃ block ∈ f.blocks, block.symbol = id
      · exact ⟨⟨f, text⟩, by simp, .inr hmem⟩
      · have hothers := hplacing.others id fun block hblock heq =>
          hmem ⟨block, Array.mem_toList_iff.mp hblock, heq⟩
        rw [Symbols.addressOf?, Symbols.get?_resolve_of_ne hresolve hid, hothers] at hsome
        obtain ⟨l, hl, hcase⟩ := (h.resolved id).mp hsome
        exact ⟨l, List.mem_append_left _ hl, hcase⟩
    · rintro ⟨l, hl, hcase⟩
      rcases List.mem_append.mp hl with hl | hl
      · have hsome := (h.resolved id).mpr ⟨l, hl, hcase⟩
        obtain ⟨a, ha⟩ := Option.isSome_iff_exists.mp hsome
        rw [hgrows.extends id a ha]
        rfl
      · rw [List.mem_singleton.mp hl] at hcase
        rcases hcase with rfl | ⟨block, hmem, rfl⟩
        · rw [Symbols.addressOf?_resolve hresolve]
          rfl
        · obtain ⟨a, ha⟩ := Option.isSome_iff_exists.mp (hblock block hmem)
          rw [hlast.extends _ a ha]
          rfl
  case nodup =>
    obtain ⟨before, hbefore, hnone, -⟩ := Symbols.resolve_eq_ok hresolve
    rw [List.map_append, List.map_singleton, List.nodup_append]
    refine ⟨h.nodup, by simp, ?_⟩
    rintro id hid other hother rfl
    -- A function that was linked has an address, and `f` had none.
    obtain ⟨l, hl, hlid⟩ := List.mem_map.mp hid
    have hsome := (h.resolved id).mpr ⟨l, hl, .inl hlid⟩
    obtain ⟨a, ha⟩ := Option.isSome_iff_exists.mp hsome
    have hplaced := hplacing.grows.extends id a ha
    rw [List.mem_singleton.mp hother, Symbols.addressOf?, hbefore, Option.bind_some, hnone]
      at hplaced
    cases hplaced

end Placed

/-- The layout of an image, with the symbols of functions and those of blocks told apart. -/
structure LaidOut (b : Builder) (ls : List LinkedFunction) : Prop extends Placed b ls where
  /-- The symbol of a function has an address if and only if the function was linked. -/
  function_resolved : ∀ name id, (name, id) ∈ b.names.functions.entries →
    ((b.symbols.addressOf? id).isSome ↔ ∃ l ∈ ls, l.value.name = name ∧ l.value.symbol = id)
  /-- The symbol of a block has an address if and only if the block is among those of its function
  that were linked. -/
  block_resolved : ∀ label id, (label, id) ∈ b.names.labels.entries →
    ((b.symbols.addressOf? id).isSome ↔ ∃ l ∈ ls, ∃ k : Nat, label = blockLabel l.value.name k ∧
      (l.value.blocks.toList.map Block.symbol)[k]? = some id)

theorem mem_blocks_iff {f : Function} {id : SymbolId} :
    (∃ block ∈ f.blocks, block.symbol = id) ↔
      ∃ k : Nat, (f.blocks.toList.map Block.symbol)[k]? = some id := by
  rw [← List.mem_iff_getElem?]
  simp

/-- Since functions and blocks share no symbol, each of them is placed by a link of its own. -/
theorem Placed.laidOut {b : Builder} {ls : List LinkedFunction} (h : b.Placed ls)
    (hnames : b.NamesSound) (hknown : ∀ l ∈ ls, l.value.KnownTo b) : b.LaidOut ls where
  toPlaced := h
  function_resolved := by
    intro name id hentry
    rw [h.resolved]
    constructor
    · rintro ⟨l, hl, rfl | hblock⟩
      · exact ⟨l, hl, NameTable.name_eq (hknown l hl).name hentry, rfl⟩
      · obtain ⟨k, hk⟩ := mem_blocks_iff.mp hblock
        exact absurd ((hknown l hl).labels k id hk) (hnames.disjoint _ _ id hentry)
    · rintro ⟨l, hl, -, hid⟩
      exact ⟨l, hl, .inl hid⟩
  block_resolved := by
    intro label id hentry
    rw [h.resolved]
    constructor
    · rintro ⟨l, hl, rfl | hblock⟩
      · exact absurd hentry (hnames.disjoint _ _ _ (hknown l hl).name)
      · obtain ⟨k, hk⟩ := mem_blocks_iff.mp hblock
        exact ⟨l, hl, k, NameTable.name_eq hentry ((hknown l hl).labels k id hk), hk⟩
    · rintro ⟨l, hl, k, -, hk⟩
      exact ⟨l, hl, .inr (mem_blocks_iff.mpr ⟨k, hk⟩)⟩

end Builder

namespace Session

theorem placed_invariant : BuilderInvariant fun b ls => b.Holds ls ∧ b.Placed ls where
  empty id := ⟨.empty id, .empty id⟩
  sameImage h hsame := ⟨h.1.of_sameImage hsame, h.2.of_sameImage hsame⟩
  link h hf hlink := ⟨h.1.link hf hlink, h.2.link hlink (h.1.size_link hf hlink)⟩

theorem placed_after (cs : List Command) {slot : String} {b : Builder}
    (hb : (after cs).workspace.builders.get? slot = some b) :
    b.Placed ((after cs).linkedInto b.id) :=
  ((buildersSound_after placed_invariant cs).holds slot b hb).2

theorem knownTo_of_linkedInto (cs : List Command) {slot : String} {b : Builder}
    (hb : (after cs).workspace.builders.get? slot = some b) {l : LinkedFunction}
    (hl : l ∈ (after cs).linkedInto b.id) : l.value.KnownTo b := by
  obtain ⟨hmem, hid⟩ := List.mem_filter.mp hl
  exact (registered_after cs).known slot b l.value hb (.inr ⟨l, hmem, rfl⟩) (of_decide_eq_true hid)

/-- **Every image is laid out without gaps, and for good.** In every session, the functions that
were linked fill the image in order and their blocks fill them, and no other symbol has an address.
Whatever commands follow, no symbol changes its name, and none that has an address changes at all;
the complete image has the same symbols. -/
theorem laidOut_after (cs : List Command) (slot : String) (b : Builder)
    (hb : (after cs).workspace.builders.get? slot = some b) :
    b.LaidOut ((after cs).linkedInto b.id) ∧
      ∀ cs' slot' b', (after (cs ++ cs')).workspace.builders.get? slot' = some b' →
        b'.id = b.id → b.symbols.Grows b'.symbols ∧
          ∀ image, b'.finish = .ok image → b.symbols.Grows image.symbols := by
  constructor
  · exact (placed_after cs hb).laidOut ((registered_after cs).names slot b hb)
      fun l hl => knownTo_of_linkedInto cs hb hl
  · intro cs' slot' b' hb' hid
    have hgrows := (later_append cs cs' hb hb' hid).grows
    refine ⟨hgrows, ?_⟩
    intro image himage
    obtain ⟨-, rfl⟩ := (holds_after _ hb').finish_eq_ok himage
    exact hgrows

/-- The copy of the first function was linked in its place, at zero, and the second one behind it.
The third gets its address later, at the end of the image. -/
theorem laidOut_mutualJumps : ∃ b b',
    (after mutualJumps).workspace.builders.get? "b" = some b ∧
    (after (mutualJumps ++ [.link "b" "late"])).workspace.builders.get? "b" = some b' ∧
    b.symbols.entries = #[⟨"main", some 0, 22⟩, ⟨"helper", some 22, 18⟩, ⟨"late", none, 0⟩,
      ⟨"main.0", some 0, 9⟩, ⟨"main.1", some 9, 13⟩, ⟨"helper.0", some 22, 18⟩] ∧
    b'.symbols.get? ⟨2⟩ = some ⟨"late", some 40, 0⟩ ∧
    b.LaidOut ((after mutualJumps).linkedInto b.id) ∧ b.symbols.Grows b'.symbols := by
  have hlater : ((after mutualJumps).workspace.builders.get? "b").bind (fun b =>
      ((after (mutualJumps ++ [.link "b" "late"])).workspace.builders.get? "b").map fun b' =>
        (b.id, b'.id, b.symbols.entries, b'.symbols.get? ⟨2⟩)) = some (⟨0⟩, ⟨0⟩,
      #[⟨"main", some 0, 22⟩, ⟨"helper", some 22, 18⟩, ⟨"late", none, 0⟩,
        ⟨"main.0", some 0, 9⟩, ⟨"main.1", some 9, 13⟩, ⟨"helper.0", some 22, 18⟩],
      some ⟨"late", some 40, 0⟩) := by
    decide +kernel
  obtain ⟨b, hb, hlater⟩ := Option.bind_eq_some_iff.mp hlater
  obtain ⟨b', hb', hlater⟩ := Option.map_eq_some_iff.mp hlater
  simp only [Prod.mk.injEq] at hlater
  obtain ⟨hid, hid', hentries, hlate⟩ := hlater
  obtain ⟨hlaid, hgrows⟩ := laidOut_after mutualJumps "b" b hb
  exact ⟨b, b', hb, hb', hentries, hlate, hlaid,
    (hgrows _ "b" b' hb' (hid'.trans hid.symm)).1⟩

end Session

end ImageLinker
