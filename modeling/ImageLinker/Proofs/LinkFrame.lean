import ImageLinker.Proofs.Safety

/-!
# What a link leaves alone

A link is the only thing that writes into an image, and it writes far back into code of other
functions. What it writes there is taken down here: blocks are appended, and then addresses are
written over the bytes that waited for them. All that a link keeps is read off these writes and off
the passes themselves; which instructions the code is made of does not matter for it.

* `ImageWrite`, `ImageWrite.perform`: one write to an image. A byte that is there changes only where
  it is overwritten (`getElem?_perform`).
* `Builder.link_writes`: the writes of one link, which bring the image before it to the one behind
  it.
* `Builder.LinkFrame`, `Builder.linkFrame`: everything that one link leaves as it was.
-/

namespace ImageLinker

/-! ## Writes -/

theorem Code.getElem?_overwrite_of_outside (code : Code) {offset p : Nat} {bs : List UInt8}
    (h : p < offset ∨ offset + bs.length ≤ p) : (code.overwrite offset bs)[p]? = code[p]? := by
  induction bs generalizing code offset with
  | nil => rfl
  | cons b bs ih =>
    rw [List.length_cons] at h
    rw [overwrite, ih _ (by omega), Array.getElem?_setIfInBounds_ne (by omega)]

/-- The place is among the eight bytes of the fixup. -/
def Fixup.Covers (f : Fixup) (p : Nat) : Prop :=
  f.offset ≤ p ∧ p < f.offset + addressSize

instance (f : Fixup) (p : Nat) : Decidable (f.Covers p) :=
  inferInstanceAs (Decidable (_ ∧ _))

theorem Fixup.apply_frame {f : Fixup} {address : Nat} {code code' : Code}
    (h : f.apply address code = .ok code') :
    code'.size = code.size ∧ ∀ p, ¬f.Covers p → code'[p]? = code[p]? := by
  unfold apply at h
  split at h
  · rw [Except.ok.injEq] at h
    subst h
    refine ⟨Code.size_overwrite _ _ _, fun p hp => Code.getElem?_overwrite_of_outside _ ?_⟩
    unfold Covers at hp
    rw [length_leBytes]
    omega
  · cases h

/-- A write to an image: code joins it at the end, or an address is written over eight bytes. -/
inductive ImageWrite where
  | append (code : Code)
  | overwrite (f : Fixup) (address : Nat)
deriving DecidableEq

namespace ImageWrite

/-- What a write makes of an image. -/
def perform (code : Code) : ImageWrite → Except Fault Code
  | append added => .ok (code ++ added)
  | overwrite f address => f.apply address code

/-- The bytes by which the image grows. -/
def growth : ImageWrite → Nat
  | append added => added.size
  | overwrite _ _ => 0

/-- What is overwritten, if anything is. -/
def overwritten? : ImageWrite → Option Fixup
  | append _ => none
  | overwrite f _ => some f

end ImageWrite

/-- The fixups whose bytes are overwritten, in order. -/
def overwritten (ws : List ImageWrite) : List Fixup :=
  ws.filterMap ImageWrite.overwritten?

theorem overwritten_append (ws vs : List ImageWrite) :
    overwritten (ws ++ vs) = overwritten ws ++ overwritten vs :=
  List.filterMap_append

/-- **Bytes stay unless they are overwritten.** Induction on the writes. -/
theorem getElem?_perform {ws : List ImageWrite} {code code' : Code}
    (h : ws.foldlM ImageWrite.perform code = .ok code') :
    code'.size = code.size + (ws.map ImageWrite.growth).sum ∧
      ∀ p < code.size, (∀ f ∈ overwritten ws, ¬f.Covers p) → code'[p]? = code[p]? := by
  induction ws generalizing code with
  | nil =>
    cases h
    exact ⟨rfl, fun _ _ _ => rfl⟩
  | cons w ws ih =>
    rw [List.foldlM_cons] at h
    obtain ⟨code₁, hfirst, h⟩ := bind_eq_ok h
    obtain ⟨hsize, hkeep⟩ := ih h
    rw [List.map_cons, List.sum_cons]
    cases w with
    | append added =>
      cases hfirst
      rw [Array.size_append] at hsize hkeep
      refine ⟨by rw [hsize, ImageWrite.growth, Nat.add_assoc], fun p hp hoverwritten => ?_⟩
      rw [hkeep p (by omega) hoverwritten, Array.getElem?_append_left hp]
    | overwrite f address =>
      obtain ⟨hsame, hframe⟩ := Fixup.apply_frame hfirst
      refine ⟨by rw [hsize, hsame, ImageWrite.growth, Nat.zero_add], fun p hp hoverwritten => ?_⟩
      rw [hkeep p (by omega) fun g hg => hoverwritten g (List.mem_cons_of_mem _ hg),
        hframe p (hoverwritten f List.mem_cons_self)]

/-! ## The writes of a link -/

/-- The writes by which fixups are served: those whose symbols have addresses. -/
def servingWrites (symbols : Symbols) (fixups : List Fixup) : List ImageWrite :=
  fixups.filterMap fun f => (symbols.addressOf? f.symbol).map (.overwrite f)

theorem overwritten_servingWrites (symbols : Symbols) (fixups : List Fixup) :
    overwritten (servingWrites symbols fixups) =
      fixups.filter fun f => (symbols.addressOf? f.symbol).isSome := by
  induction fixups with
  | nil => rfl
  | cons f fixups ih =>
    unfold servingWrites overwritten at ih ⊢
    cases h : symbols.addressOf? f.symbol with
    | none => simp [h, ih]
    | some a => simp [h, ih, ImageWrite.overwritten?]

theorem servingWrites_eq_nil {symbols : Symbols} {fixups : List Fixup}
    (h : ∀ f ∈ fixups, symbols.addressOf? f.symbol = none) : servingWrites symbols fixups = [] := by
  refine List.filterMap_eq_nil_iff.mpr fun f hf => ?_
  rw [h f hf, Option.map_none]

theorem sum_growth_servingWrites (symbols : Symbols) (fixups : List Fixup) :
    ((servingWrites symbols fixups).map ImageWrite.growth).sum = 0 := by
  induction fixups with
  | nil => rfl
  | cons f fixups ih =>
    unfold servingWrites at ih ⊢
    cases h : symbols.addressOf? f.symbol with
    | none => simp [h, ih]
    | some a => simp [h, ih, ImageWrite.growth]

/-- The loop of `patch`: each fixup is written or put aside, and those put aside have no address.
Induction on the fixups. -/
theorem foldlM_patchStep_writes {symbols : Symbols} {fixups : List Fixup} {code code' : Code}
    {waiting waiting' : Array Fixup}
    (h : fixups.foldlM (patchStep symbols) (code, waiting) = .ok (code', waiting'))
    (hwaiting : ∀ f ∈ waiting, symbols.addressOf? f.symbol = none) :
    (servingWrites symbols fixups).foldlM ImageWrite.perform code = .ok code' ∧
      ∀ f ∈ waiting', symbols.addressOf? f.symbol = none := by
  induction fixups generalizing code waiting with
  | nil =>
    cases h
    exact ⟨rfl, hwaiting⟩
  | cons f fixups ih =>
    rw [List.foldlM_cons] at h
    obtain ⟨⟨code₁, waiting₁⟩, hstep, h⟩ := bind_eq_ok h
    obtain ⟨symbol, hget, hstep⟩ := bind_eq_ok hstep
    have haddress : symbols.addressOf? f.symbol = symbol.address := by
      rw [Symbols.addressOf?, Symbols.get_eq_ok_iff.mp hget, Option.bind_some]
    rw [servingWrites, List.filterMap_cons, haddress]
    cases hcase : symbol.address with
    | some a =>
      simp only [hcase] at hstep
      obtain ⟨code₂, happly, hstep⟩ := bind_eq_ok hstep
      cases hstep
      obtain ⟨hrest, hwaits⟩ := ih h hwaiting
      refine ⟨?_, hwaits⟩
      show (f.apply a code >>= fun code => (servingWrites symbols fixups).foldlM _ code) = _
      rw [happly]
      exact hrest
    | none =>
      simp only [hcase] at hstep
      cases hstep
      refine ih h fun g hg => ?_
      rcases Array.mem_push.mp hg with hg | rfl
      · exact hwaiting g hg
      · rw [haddress, hcase]

theorem patch_writes {symbols : Symbols} {fixups waiting : List Fixup} {code code' : Code}
    (h : patch symbols code fixups = .ok (code', waiting)) :
    (servingWrites symbols fixups).foldlM ImageWrite.perform code = .ok code' ∧
      ∀ f ∈ waiting, symbols.addressOf? f.symbol = none := by
  unfold patch at h
  obtain ⟨⟨code₁, waiting₁⟩, hloop, h⟩ := bind_eq_ok h
  cases h
  obtain ⟨hwrites, hwaits⟩ := foldlM_patchStep_writes hloop (by simp)
  exact ⟨hwrites, fun f hf => hwaits f (Array.mem_toList_iff.mp hf)⟩

/-- A block whose fixups were written, some of them or all. -/
structure Block.Patched (block block' : Block) : Prop where
  symbol : block'.symbol = block.symbol
  size : block'.size = block.size
  fixups : block'.fixups = block.fixups
  /-- Outside of the fixups no byte has changed. -/
  code : ∀ p, (∀ f ∈ block.fixups, ¬f.Covers p) → block'.code[p]? = block.code[p]?

theorem Block.patched_of_patch {symbols : Symbols} {block : Block} {code : Code}
    {waiting : List Fixup}
    (h : patch symbols block.code block.fixups.toList = .ok (code, waiting)) :
    block.Patched { block with code } := by
  obtain ⟨hsize, hkeep⟩ := getElem?_perform (patch_writes h).1
  rw [sum_growth_servingWrites, Nat.add_zero] at hsize
  rw [overwritten_servingWrites] at hkeep
  refine ⟨rfl, hsize, rfl, fun p hp => ?_⟩
  by_cases hlt : p < block.code.size
  · exact hkeep p hlt fun f hf => hp f (Array.mem_toList_iff.mp (List.mem_of_mem_filter hf))
  · show code[p]? = _
    rw [Array.getElem?_eq_none (by omega), Array.getElem?_eq_none (by omega)]

theorem mapM_relocated_waiting {symbols : Symbols} {base : Nat} {fixups moved : List Fixup}
    (h : fixups.mapM (fun f => f.relocated base) = .ok moved)
    (hwaiting : ∀ f ∈ fixups, symbols.addressOf? f.symbol = none) :
    ∀ f ∈ moved, symbols.addressOf? f.symbol = none := by
  induction fixups generalizing moved with
  | nil =>
    cases h
    simp
  | cons f fixups ih =>
    rw [List.mapM_cons] at h
    obtain ⟨f', hf, h⟩ := bind_eq_ok h
    obtain ⟨moved', hmoved, h⟩ := bind_eq_ok h
    obtain ⟨offset, -, hf⟩ := bind_eq_ok hf
    cases hf
    cases h
    intro g hg
    rcases List.mem_cons.mp hg with rfl | hg
    · exact hwaiting f List.mem_cons_self
    · exact ih hmoved (fun k hk => hwaiting k (List.mem_cons_of_mem _ hk)) g hg

/-- The writes by which blocks join an image. -/
def joiningWrites (blocks : List Block) : List ImageWrite :=
  blocks.map fun block => .append block.code

theorem overwritten_joiningWrites (blocks : List Block) :
    overwritten (joiningWrites blocks) = [] := by
  refine List.filterMap_eq_nil_iff.mpr fun w hw => ?_
  obtain ⟨block, -, rfl⟩ := List.mem_map.mp hw
  rfl

theorem map_growth_joiningWrites (blocks : List Block) :
    (joiningWrites blocks).map ImageWrite.growth = blocks.map Block.size := by
  rw [joiningWrites, List.map_map]
  rfl

namespace Builder

/-- The second pass only adds code, and what it lets wait has no address, so that the third pass
overwrites nothing in the new blocks. Induction on the blocks. -/
theorem foldlM_layoutAppend_writes {symbols : Symbols} {blocks : List Block} {l l' : Layout}
    (h : blocks.foldlM (Layout.append symbols) l = .ok l') :
    ∃ added, l'.blocks.toList = l.blocks.toList ++ added ∧
      List.Forall₂ Block.Patched blocks added ∧
      (joiningWrites added).foldlM ImageWrite.perform l.code = .ok l'.code ∧
      servingWrites symbols l'.pending = servingWrites symbols l.pending := by
  induction blocks generalizing l with
  | nil =>
    cases h
    exact ⟨[], by simp, .nil, rfl, rfl⟩
  | cons block blocks ih =>
    rw [List.foldlM_cons] at h
    obtain ⟨l₁, hfirst, h⟩ := bind_eq_ok h
    unfold Layout.append at hfirst
    obtain ⟨⟨code, waiting⟩, hpatch, hfirst⟩ := bind_eq_ok hfirst
    obtain ⟨moved, hmoved, hfirst⟩ := bind_eq_ok hfirst
    cases hfirst
    obtain ⟨added, hblocks, hpatched, hwrites, hserving⟩ := ih h
    refine ⟨{ block with code } :: added, by simp [hblocks],
      .cons (Block.patched_of_patch hpatch) hpatched,
      hwrites, ?_⟩
    have hwaits := servingWrites_eq_nil (mapM_relocated_waiting hmoved (patch_writes hpatch).2)
    rw [hserving, servingWrites, List.filterMap_append]
    show servingWrites symbols l.pending ++ servingWrites symbols moved = _
    rw [hwaits, List.append_nil]

/-- All that a link writes: the blocks as they are afterwards, and what waited for their symbols. -/
def linkWrites (b b' : Builder) (f' : Function) : List ImageWrite :=
  joiningWrites f'.blocks.toList ++ servingWrites b'.symbols b.pending

theorem overwritten_linkWrites (b b' : Builder) (f' : Function) :
    overwritten (b.linkWrites b' f') =
      b.pending.filter fun g => (b'.symbols.addressOf? g.symbol).isSome := by
  rw [linkWrites, overwritten_append, overwritten_joiningWrites, overwritten_servingWrites,
    List.nil_append]

/-- **The writes of one link.** -/
theorem link_writes {b b' : Builder} {f f' : Function} (h : b.link f = .ok (b', f')) :
    (b.linkWrites b' f').foldlM ImageWrite.perform b.code = .ok b'.code ∧
      List.Forall₂ Block.Patched f.blocks.toList f'.blocks.toList := by
  obtain ⟨_, _, layout, -, -, hlayout, hpatch, -, hf'⟩ := link_passes h
  obtain ⟨added, hblocks, hpatched, hwrites, hserving⟩ := foldlM_layoutAppend_writes hlayout
  have hadded : f'.blocks.toList = added := by
    rw [hf']
    exact hblocks
  have hserved := (patch_writes hpatch).1
  rw [hserving] at hserved
  constructor
  · simp only [linkWrites, List.foldlM_append, hadded, hwrites]
    exact hserved
  · rwa [hadded]

end Builder

/-! ## The frame of a link -/

/-- The symbol is that of the function or of one of its blocks. -/
def Function.HasSymbol (f : Function) (id : SymbolId) : Prop :=
  f.symbol = id ∨ ∃ block ∈ f.blocks, block.symbol = id

theorem sum_size_of_patched {bs bs' : List Block} (h : List.Forall₂ Block.Patched bs bs') :
    (bs'.map Block.size).sum = (bs.map Block.size).sum := by
  induction h with
  | nil => rfl
  | cons hb _ ih => rw [List.map_cons, List.map_cons, List.sum_cons, List.sum_cons, hb.size, ih]

namespace Builder

/-- What a link of `f` leaves as it was, for the builder and the function before and after it. -/
structure LinkFrame (b : Builder) (f : Function) (b' : Builder) (f' : Function) : Prop where
  /-- The image grows by the bytes of the function. -/
  size : b'.code.size = b.code.size + f.size
  /-- Nothing is written into it but this. -/
  writes : (b.linkWrites b' f').foldlM ImageWrite.perform b.code = .ok b'.code
  /-- A byte of the image changes only where a reference waited for the function or its blocks. -/
  code : ∀ p < b.code.size, b'.code[p]? ≠ b.code[p]? →
    ∃ g ∈ b.pending, g.Covers p ∧ f.HasSymbol g.symbol
  symbols : ∀ id, ¬f.HasSymbol id → b'.symbols.get? id = b.symbols.get? id
  id : b'.id = b.id
  names : b'.names = b.names
  globals : b'.globals = b.globals
  /-- The function is marked as linked, and otherwise only its blocks may have changed. -/
  function : f' = { f with blocks := f'.blocks, linked := true }
  /-- The blocks are the same ones in the same order, with the same fixups. -/
  blocks : List.Forall₂ Block.Patched f.blocks.toList f'.blocks.toList

variable {b b' : Builder} {f f' : Function}

theorem get?_link_of_not_hasSymbol (h : b.link f = .ok (b', f')) {id : SymbolId}
    (hid : ¬f.HasSymbol id) : b'.symbols.get? id = b.symbols.get? id := by
  obtain ⟨symbols, stop, _, hblocks, hresolve, -, -, -, -⟩ := link_passes h
  obtain ⟨hfunction, hblock⟩ := not_or.mp hid
  have hothers := (Symbols.place_eq_ok hblocks).others id fun block hmem heq =>
    hblock ⟨block, Array.mem_toList_iff.mp hmem, heq⟩
  rw [Symbols.get?_resolve_of_ne hresolve (Ne.symm hfunction), hothers]

/-- **The frame of one link.** All that it takes is that what waits has no address yet. -/
theorem linkFrame (h : b.link f = .ok (b', f'))
    (hwaits : ∀ g ∈ b.pending, b.symbols.addressOf? g.symbol = none) : b.LinkFrame f b' f' := by
  obtain ⟨hwrites, hblocks⟩ := link_writes h
  obtain ⟨hsize, hkeep⟩ := getElem?_perform hwrites
  obtain ⟨_, _, layout, -, -, -, -, hbuilder, hfunction⟩ := link_passes h
  constructor
  case size =>
    rw [hsize, linkWrites, List.map_append, List.sum_append, sum_growth_servingWrites,
      map_growth_joiningWrites, sum_size_of_patched hblocks, Function.size_eq, Nat.add_zero]
  case writes => exact hwrites
  case code =>
    intro p hp hchanged
    by_contra hnone
    refine hchanged (hkeep p hp fun g hg hcovers => hnone ?_)
    rw [overwritten_linkWrites, List.mem_filter] at hg
    refine ⟨g, hg.1, hcovers, ?_⟩
    -- The reference waited before and is served now, so its symbol was placed by this link.
    by_contra hother
    have hplaced := hg.2
    rw [Symbols.addressOf?, get?_link_of_not_hasSymbol h hother] at hplaced
    rw [← Symbols.addressOf?, hwaits g hg.1] at hplaced
    cases hplaced
  case symbols => exact fun id hid => get?_link_of_not_hasSymbol h hid
  case id => rw [hbuilder]
  case names => rw [hbuilder]
  case globals => rw [hbuilder]
  case function => rw [hfunction]
  case blocks => exact hblocks

end Builder

end ImageLinker
