import ImageLinker.Proofs.Handles

/-!
# What the handle of a block stands for

A handle records the builder, the function, a number and a symbol, and nobody ever compares the
number with the symbol. Copies of a function grow on their own, functions and handles outlive their
builder, and yet a handle stands for the same block in all of them: the label of a block is made of
the name of the function and the number, and a builder gives no label twice. When such a block is
linked, the symbol of the handle gets the address at which the block begins, so that every reference
that was made from the handle leads there.

* `BlockRef.KnownTo.symbol_eq`: a builder that knows a handle and a function decides what the one
  stands for in the other.
* `Session.exists_lastKnown`: there is such a builder for all that has ever been made, even when it
  is gone from the workspace.
* `Builder.Holds.block_link`: where the bytes of a block are once it is linked.
* `Session.handle_denotes`: what a handle stands for, in every session.
-/

namespace ImageLinker

/-! ## One handle, one block -/

theorem Function.owns_iff {g : Function} {r : BlockRef} :
    g.owns r = true ↔ g.builder = r.builder ∧ g.symbol = r.function := by
  unfold owns
  rw [Bool.and_eq_true, beq_iff_eq, beq_iff_eq, eq_comm, @eq_comm _ r.function]

theorem Function.block?_eq_some_iff {g : Function} {r : BlockRef} {block : Block} :
    g.block? r = some block ↔
      g.builder = r.builder ∧ g.symbol = r.function ∧ g.blocks[r.index]? = some block := by
  unfold block?
  rw [Option.ite_none_right_eq_some, owns_iff, and_assoc]

theorem Function.isSome_block?_iff {g : Function} {r : BlockRef} :
    (g.block? r).isSome ↔
      g.builder = r.builder ∧ g.symbol = r.function ∧ r.index < g.blocks.size := by
  rw [Option.isSome_iff_exists]
  simp only [block?_eq_some_iff, exists_and_left]
  rw [← Option.isSome_iff_exists, isSome_getElem?]

theorem BlockRef.KnownTo.symbol_eq {r : BlockRef} {b : Builder} {g : Function} (hr : r.KnownTo b)
    (hg : g.KnownTo b) (hsymbol : g.symbol = r.function) {block : Block}
    (hat : g.blocks[r.index]? = some block) : block.symbol = r.symbol := by
  obtain ⟨name, hfunction, hlabel⟩ := hr
  have hname : name = g.name := by
    have hentry := hg.name
    rw [hsymbol] at hentry
    exact NameTable.name_eq hfunction hentry
  have hblock : (g.blocks.toList.map Block.symbol)[r.index]? = some block.symbol := by
    simp [hat]
  rw [hname] at hlabel
  exact NameTable.id_eq (hg.labels r.index _ hblock) hlabel

namespace Session

/-- At some time there was this function, or a function had this value when it was linked. -/
def HadFunction (cs : List Command) (f : Function) : Prop :=
  ∃ done, done <+: cs ∧ (after done).HasFunction f

/-- At some time there was this handle. -/
def HadRef (cs : List Command) (r : BlockRef) : Prop :=
  ∃ done slot, done <+: cs ∧ (after done).workspace.refs.get? slot = some r

theorem HadFunction.concat_cases {cs : List Command} {c : Command} {f : Function}
    (h : HadFunction (cs ++ [c]) f) : HadFunction cs f ∨ (after (cs ++ [c])).HasFunction f := by
  obtain ⟨done, hdone, hf⟩ := h
  rcases List.prefix_concat_iff.mp hdone with rfl | hdone
  · exact .inr hf
  · exact .inl ⟨done, hdone, hf⟩

theorem HadRef.concat_cases {cs : List Command} {c : Command} {r : BlockRef}
    (h : HadRef (cs ++ [c]) r) :
    HadRef cs r ∨ ∃ slot, (after (cs ++ [c])).workspace.refs.get? slot = some r := by
  obtain ⟨done, slot, hdone, hr⟩ := h
  rcases List.prefix_concat_iff.mp hdone with rfl | hdone
  · exact .inr ⟨slot, hr⟩
  · exact .inl ⟨done, slot, hdone, hr⟩

/-- A state of a builder that knows all functions and handles of this number so far. It is the state
of the builder now, or the last one before the builder was used up. -/
structure LastKnown (cs : List Command) (id : BuilderId) (b : Builder) : Prop where
  functions : ∀ f, HadFunction cs f → f.builder = id → f.KnownTo b
  refs : ∀ r, HadRef cs r → r.builder = id → r.KnownTo b

theorem lastKnown_of_builder {cs : List Command} {slot : String} {b : Builder}
    (hb : (after cs).workspace.builders.get? slot = some b) : LastKnown cs b.id b where
  functions := by
    rintro f ⟨done, ⟨rest, rfl⟩, hf⟩ hid
    exact knownTo_of_earlier done rest hb hf hid
  refs := by
    rintro r ⟨done, ref, ⟨rest, rfl⟩, hr⟩ hid
    exact refKnownTo_of_earlier done rest hb hr hid

/-- Without its builder no function is made and none gets a block, so that the last state of the
builder goes on to know them all. -/
theorem LastKnown.step {cs : List Command} {c : Command} {id : BuilderId} {b : Builder}
    (h : LastKnown cs id b)
    (hgone : ∀ slot b', (after (cs ++ [c])).workspace.builders.get? slot = some b' → b'.id ≠ id) :
    LastKnown (cs ++ [c]) id b := by
  have hchange := step_change (after cs) c
  rw [← after_concat] at hchange
  constructor
  case functions =>
    intro f hf hid
    rcases hf.concat_cases with hold | hf
    · exact h.functions f hold hid
    cases hchange.function_origin (functionsSound_after cs) (buildersSound_after holds_invariant cs)
      hf with
    | @kept g hg hsame =>
      rw [hsame.builder] at hid
      exact (h.functions g ⟨cs, List.prefix_rfl, hg⟩ hid).of_sameSymbols hsame
    | made hb hb' hmade =>
      have hbuilder := (Builder.Step.newFunction hmade).later.id
      rw [Builder.newFunction_eq_ok hmade] at hid
      exact absurd (hbuilder.trans hid) (hgone _ _ hb')
    | extended hb hb' hg hmade =>
      obtain ⟨hcheck, rfl⟩ := Builder.appendBlock_eq_ok hmade
      have hbuilder := (Builder.Step.appendBlock hmade).later.id
      have hown := (Builder.checkUnlinked_eq_ok hcheck).1
      exact absurd (hbuilder.trans (hown.symm.trans hid)) (hgone _ _ hb')
  case refs =>
    intro r hr hid
    rcases hr.concat_cases with hold | ⟨slot, hr⟩
    · exact h.refs r hold hid
    rcases hchange.ref_cases hr with hold | ⟨builder, function, b₀, b₁, f, f', hb₀, hb₁, -, hmade⟩
    · exact h.refs r ⟨cs, slot, List.prefix_rfl, hold⟩ hid
    · have hbuilder := (Builder.Step.appendBlock hmade).later.id
      have hown := (Builder.checkUnlinked_eq_ok (Builder.appendBlock_eq_ok hmade).1).1
      rw [Builder.appendBlock_ref hmade] at hid
      exact absurd (hbuilder.trans (hown.symm.trans hid)) (hgone _ _ hb₁)

/-- Induction on the commands, the last one first. -/
theorem exists_lastKnown (cs : List Command) (id : BuilderId) : ∃ b, LastKnown cs id b := by
  induction cs using List.reverseRecOn with
  | nil =>
    refine ⟨{ id }, ?_, ?_⟩
    · rintro f ⟨done, hdone, ⟨slot, hf⟩ | ⟨l, hl, -⟩⟩ -
      · rw [List.prefix_nil.mp hdone] at hf
        cases hf
      · rw [List.prefix_nil.mp hdone] at hl
        cases hl
    · rintro r ⟨done, slot, hdone, hr⟩ -
      rw [List.prefix_nil.mp hdone] at hr
      cases hr
  | append_singleton cs c ih =>
    by_cases hthere : ∃ slot b,
        (after (cs ++ [c])).workspace.builders.get? slot = some b ∧ b.id = id
    · obtain ⟨slot, b, hb, rfl⟩ := hthere
      exact ⟨b, lastKnown_of_builder hb⟩
    · obtain ⟨b, hb⟩ := ih
      exact ⟨b, hb.step fun slot b' hb' hid => hthere ⟨slot, b', hb', hid⟩⟩

theorem symbol_of_block? {cs : List Command} {r : BlockRef} {g : Function} (hr : HadRef cs r)
    (hg : HadFunction cs g) {block : Block} (hblock : g.block? r = some block) :
    block.symbol = r.symbol := by
  obtain ⟨hbuilder, hsymbol, hat⟩ := Function.block?_eq_some_iff.mp hblock
  obtain ⟨b, hb⟩ := exists_lastKnown cs r.builder
  exact (hb.refs r hr rfl).symbol_eq (hb.functions g hg hbuilder) hsymbol hat

end Session

/-! ## Where a linked block is -/

theorem Block.length_linkedCode (symbols : Symbols) (b : Block) :
    (b.linkedCode symbols).length = b.size := by
  unfold linkedCode size
  generalize b.fixups.toList = fixups, b.code = code
  show (fixups.foldl _ code).size = code.size
  induction fixups generalizing code with
  | nil => rfl
  | cons f fixups ih => rw [List.foldl_cons, ih, Code.size_overwrite]

theorem mem_placedFrom_of_getElem? {bs : List Block} {k : Nat} {block : Block}
    (hat : bs[k]? = some block) (start : Nat) :
    (start + ((bs.take k).map Block.size).sum, block) ∈ placedFrom start bs := by
  induction bs generalizing k start with
  | nil => simp at hat
  | cons b bs ih =>
    cases k with
    | zero =>
      rw [List.getElem?_cons_zero, Option.some.injEq] at hat
      simp [placedFrom, hat]
    | succ k =>
      rw [List.getElem?_cons_succ] at hat
      have hmem := ih hat (start + b.size)
      rw [Nat.add_assoc] at hmem
      simpa [placedFrom] using Or.inr hmem

namespace Builder

/-- The bytes of the block behind a handle begin at this address of the image. -/
def BlockAt (b : Builder) (f : Function) (r : BlockRef) (a : Nat) : Prop :=
  ∃ block before rest, f.block? r = some block ∧
    b.code.toList = before ++ block.code.toList ++ rest ∧ before.length = a

/-- The symbol has this address, and the address stands in the image wherever one of the functions
names the symbol. -/
def LeadsTo (b : Builder) (ls : List LinkedFunction) (id : SymbolId) (a : Nat) : Prop :=
  b.symbols.addressOf? id = some a ∧
    ∀ p i, (p, i) ∈ withAddresses 0 (instructionsOf ls) → i.symbol? = some id →
      readAddress (b.code.toList.drop (p + i.head.length)) = some a

variable {b b' : Builder} {ls : List LinkedFunction} {f f' : Function}
  {text : List (List Instruction)}

/-- **The place of a block.** The function stands behind all that was linked before, and the block
behind the blocks in front of it. -/
theorem Holds.block_link (h : b.Holds ls) (hf : f.Holds text) (hlink : b.link f = .ok (b', f'))
    {r : BlockRef} {block : Block} (hblock : f.block? r = some block) :
    b'.BlockAt f' r (b.code.size + ((f.blocks.toList.take r.index).map Block.size).sum) ∧
      b'.symbols.addressOf? block.symbol =
        some (b.code.size + ((f.blocks.toList.take r.index).map Block.size).sum) := by
  obtain ⟨symbols, stop, hplacing, hresolve, hb', rfl⟩ := h.link_eq hf hlink
  obtain ⟨hbuilder, hsymbol, hat⟩ := Function.block?_eq_some_iff.mp hblock
  have hlist : f.blocks.toList[r.index]? = some block := by simpa using hat
  constructor
  · refine ⟨block.linked b'.symbols,
      codeAt b'.symbols.valueOf (instructionsOf ls) ++
        (f.blocks.toList.take r.index).flatMap (Block.linkedCode b'.symbols),
      (f.blocks.toList.drop (r.index + 1)).flatMap (Block.linkedCode b'.symbols), ?_, ?_, ?_⟩
    · exact Function.block?_eq_some_iff.mpr ⟨hbuilder, hsymbol, by simp [hat]⟩
    · obtain ⟨hlt, hget⟩ := List.getElem?_eq_some_iff.mp hlist
      have hsplit : f.blocks.toList =
          f.blocks.toList.take r.index ++ block :: f.blocks.toList.drop (r.index + 1) := by
        rw [← hget, ← List.drop_eq_getElem_cons hlt, List.take_append_drop]
      have hcode : b'.code.toList = codeAt b'.symbols.valueOf (instructionsOf ls) ++
          f.blocks.toList.flatMap (Block.linkedCode b'.symbols) := by
        rw [flatMap_linkedCode_of_holds hf, ← codeAt_append, hb']
      rw [hcode]
      conv_lhs => rw [hsplit]
      simp [Block.linked]
    · simp [length_codeAt, h.size_code, List.length_flatMap, Block.length_linkedCode]
  · have hplaced := hplacing.placed _ (mem_placedFrom_of_getElem? hlist b.code.size)
    exact (Symbols.grows_resolve hresolve).extends _ _ hplaced

theorem Holds.leadsTo (h : b.Holds ls) {id : SymbolId} {a : Nat}
    (ha : b.symbols.addressOf? id = some a) : b.LeadsTo ls id a := by
  refine ⟨ha, ?_⟩
  intro p i hi hid
  rw [h.readAddress_reference hi hid, Symbols.valueOf, ha]
  rfl

end Builder

namespace Session

theorem builders_link {cs : List Command} {builder function : String} {b b' : Builder}
    {f f' : Function} (hb : (after cs).workspace.builders.get? builder = some b)
    (hf : (after cs).workspace.functions.get? function = some f)
    (hlink : b.link f = .ok (b', f')) :
    (after (cs ++ [.link builder function])).workspace.builders.get? builder = some b' := by
  rw [after_concat, step_link_of_ok hb hf hlink]
  exact Slots.get?_set_self _ _ _

/-- **A handle stands for one block.** Take any handle that was ever given out in a session, and any
function that there ever was, be it a copy or of another builder. The function has the block behind
the handle if and only if its builder and symbol are those of the handle and it has so many blocks,
and then the block has the symbol of the handle. If such a function is linked, then the symbol gets
the address at which the bytes of that block begin; and ever after, wherever a function in the same
image names the symbol, before or behind the block, this address is what stands there. -/
theorem handle_denotes (cs : List Command) (r : BlockRef) (hr : HadRef cs r) :
    (∀ g, HadFunction cs g →
      ((g.block? r).isSome ↔
        g.builder = r.builder ∧ g.symbol = r.function ∧ r.index < g.blocks.size) ∧
      ∀ block, g.block? r = some block → block.symbol = r.symbol) ∧
    ∀ builder function b g b' g', (after cs).workspace.builders.get? builder = some b →
      (after cs).workspace.functions.get? function = some g → (g.block? r).isSome →
      b.link g = .ok (b', g') →
      ∃ a, a = b.code.size + ((g.blocks.toList.take r.index).map Block.size).sum ∧
        b'.BlockAt g' r a ∧ b'.symbols.addressOf? r.symbol = some a ∧
        ∀ cs' slot c,
          (after (cs ++ [.link builder function] ++ cs')).workspace.builders.get? slot = some c →
          c.id = b.id →
          c.LeadsTo ((after (cs ++ [.link builder function] ++ cs')).linkedInto c.id)
            r.symbol a := by
  constructor
  · intro g hg
    exact ⟨Function.isSome_block?_iff, fun block hblock => symbol_of_block? hr hg hblock⟩
  · intro builder function b g b' g' hb hg hsome hlink
    obtain ⟨block, hblock⟩ := Option.isSome_iff_exists.mp hsome
    have hsymbol := symbol_of_block? hr ⟨cs, List.prefix_rfl, .inl ⟨function, hg⟩⟩ hblock
    have htext := functionsSound_after cs function g hg (Builder.link_eq_ok hlink).2.1
    obtain ⟨hat, haddress⟩ := (holds_after cs hb).block_link htext hlink hblock
    rw [hsymbol] at haddress
    refine ⟨_, rfl, hat, haddress, ?_⟩
    intro cs' slot c hc hid
    have hlater := later_append _ cs' (builders_link hb hg hlink) hc
      (hid.trans (Builder.linked_link hlink).2.symm)
    exact (holds_after _ hc).leadsTo (hlater.grows.extends _ _ haddress)

/-- The handle of the second block was made for the function, and it serves the copy as well. The
copy is linked first, with the block behind nine bytes, and there its own jump and all later ones
lead. -/
theorem handle_mutualJumps : ∃ r b main copy b' copy' c,
    (after (mutualJumps.take 12)).workspace.refs.get? "loop" = some r ∧
    (after (mutualJumps.take 12)).workspace.builders.get? "b" = some b ∧
    (after (mutualJumps.take 12)).workspace.functions.get? "main" = some main ∧
    (after (mutualJumps.take 12)).workspace.functions.get? "copy" = some copy ∧
    (∃ block, main.block? r = some block ∧ block.symbol = r.symbol) ∧
    b.link copy = .ok (b', copy') ∧ b'.BlockAt copy' r 9 ∧
    (after (mutualJumps.take 12 ++ [.link "b" "copy"] ++
      mutualJumps.drop 13)).workspace.builders.get? "b" = some c ∧
    c.LeadsTo ((after (mutualJumps.take 12 ++ [.link "b" "copy"] ++
      mutualJumps.drop 13)).linkedInto c.id) r.symbol 9 := by
  have href : (after (mutualJumps.take 12)).workspace.refs.get? "loop" =
      some { builder := ⟨0⟩, function := ⟨0⟩, index := 1, symbol := ⟨4⟩ } := by
    decide +kernel
  have hmain : ((after (mutualJumps.take 12)).workspace.functions.get? "main").map (fun f =>
      (f.builder, f.symbol, f.blocks.size)) = some (⟨0⟩, ⟨0⟩, 2) := by
    decide +kernel
  have hlink : ((after (mutualJumps.take 12)).workspace.builders.get? "b").bind (fun b =>
      ((after (mutualJumps.take 12)).workspace.functions.get? "copy").bind fun f =>
        (b.link f).toOption.map fun _ => (b.id, b.code.size, f.builder, f.symbol, f.blocks.size,
          ((f.blocks.toList.take 1).map Block.size).sum)) =
      some (⟨0⟩, 0, ⟨0⟩, ⟨0⟩, 2, 9) := by
    decide +kernel
  have hlater : ((after (mutualJumps.take 12 ++ [.link "b" "copy"] ++
      mutualJumps.drop 13)).workspace.builders.get? "b").map Builder.id = some ⟨0⟩ := by
    decide +kernel
  obtain ⟨main, hmain, hmainAt⟩ := Option.map_eq_some_iff.mp hmain
  obtain ⟨b, hb, hlink⟩ := Option.bind_eq_some_iff.mp hlink
  obtain ⟨copy, hcopy, hlink⟩ := Option.bind_eq_some_iff.mp hlink
  obtain ⟨⟨b', copy'⟩, hlink, hplaces⟩ := Option.map_eq_some_iff.mp hlink
  obtain ⟨c, hc, hcid⟩ := Option.map_eq_some_iff.mp hlater
  simp only [Prod.mk.injEq] at hmainAt hplaces
  obtain ⟨hmainBuilder, hmainSymbol, hmainSize⟩ := hmainAt
  obtain ⟨hid, hsize, hbuilder, hsymbol, hblocks, hsum⟩ := hplaces
  have hlink := toOption_eq_some.mp hlink
  obtain ⟨hdenotes, hlinked⟩ := handle_denotes (mutualJumps.take 12) _
    ⟨_, "loop", List.prefix_rfl, href⟩
  obtain ⟨hsome, hsame⟩ := hdenotes main ⟨_, List.prefix_rfl, .inl ⟨"main", hmain⟩⟩
  obtain ⟨block, hblock⟩ := Option.isSome_iff_exists.mp
    (hsome.mpr ⟨hmainBuilder, hmainSymbol, by rw [hmainSize]; decide⟩)
  obtain ⟨a, ha, hat, -, hleads⟩ := hlinked "b" "copy" b copy b' copy' hb hcopy
    (Function.isSome_block?_iff.mpr ⟨hbuilder, hsymbol, by rw [hblocks]; decide⟩) hlink
  rw [hsize, hsum] at ha
  subst ha
  exact ⟨_, b, main, copy, b', copy', c, href, hb, hmain, hcopy,
    ⟨block, hblock, hsame block hblock⟩,
    hlink, hat, hc, hleads _ "b" c hc (hcid.trans hid.symm)⟩

end Session

end ImageLinker
