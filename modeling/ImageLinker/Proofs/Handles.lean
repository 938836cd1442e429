import ImageLinker.Proofs.BlockRequests
import ImageLinker.Proofs.Boundaries

/-!
# Handles and the references made from them

A reference is made from the handle of a block or from a function. Both know their builder, but the
reference does not: it is an index into an arena, and at the link it is looked up in the arena of
the builder that links. As long as builders are kept apart this is the symbol that was meant. A
reference to another builder is noticed if the arena is too small for it; if not, then it is one to
whatever symbol of this builder has the same index.

* `BlockRef.KnownTo`, `Session.handlesKnown_after`: what a handle records is registered with its
  builder.
* `Session.HadHandle`: there was something to make a reference from.
* `Builder.TakesAsOwn`: what a link makes of an index, wherever it comes from.
* `Session.foreign_reference`: what becomes of a reference to another builder.
-/

namespace ImageLinker

/-! ## Handles are registered -/

/-- The builder has the function of the block and the label of the block in its tables, with the
symbols that the handle records. -/
def BlockRef.KnownTo (r : BlockRef) (b : Builder) : Prop :=
  ∃ name, (name, r.function) ∈ b.names.functions.entries ∧
    (blockLabel name r.index, r.symbol) ∈ b.names.labels.entries

theorem BlockRef.KnownTo.of_later {r : BlockRef} {b b' : Builder} (h : r.KnownTo b)
    (hlater : b.Later b') : r.KnownTo b' := by
  obtain ⟨name, hfunction, hlabel⟩ := h
  exact ⟨name, hlater.functions hfunction, hlater.labels hlabel⟩

theorem Builder.appendBlock_ref {b b' : Builder} {f f' : Function} {r : BlockRef}
    (h : b.appendBlock f = (.ok (r, f'), b')) : r = f.nextRef b.symbols.nextId := by
  rcases appendBlock_cases h with ⟨⟨e, he⟩, -⟩ | ⟨labels, -, -, hresult, -⟩
  · cases he
  · exact congrArg Prod.fst (Except.ok.inj hresult)

theorem BlockRef.KnownTo.appendBlock {r : BlockRef} {b b' : Builder} {f f' : Function}
    (hf : f.KnownTo b) (h : b.appendBlock f = (.ok (r, f'), b')) : r.KnownTo b' := by
  rcases Builder.appendBlock_cases h with ⟨⟨e, he⟩, -⟩ | ⟨labels, -, hinsert, hresult, rfl⟩
  · cases he
  · cases hresult
    refine ⟨f.name, hf.name, ?_⟩
    show _ ∈ labels.entries
    rw [NameTable.entries_insert hinsert]
    exact List.mem_cons_self

namespace Session

variable {s s' : Session}

/-- A handle was there before, or was made together with a block just now. -/
theorem Change.ref_cases (h : Change s s') {ref : String} {r : BlockRef}
    (hr : s'.workspace.refs.get? ref = some r) :
    s.workspace.refs.get? ref = some r ∨
      ∃ builder function b b' f f', s.workspace.builders.get? builder = some b ∧
        s'.workspace.builders.get? builder = some b' ∧
        s.workspace.functions.get? function = some f ∧
        b.appendBlock f = (.ok (r, f'), b') := by
  cases h with
  | @blockMade builder function b b' f f' made slot hb hf h =>
    rw [Slots.get?_set] at hr
    split at hr
    · cases hr
      exact .inr ⟨builder, function, b, b', f, f', hb, Slots.get?_set_self _ _ _, hf, h⟩
    · exact .inl hr
  | _ => exact .inl hr

/-- Every handle is known to its builder, as long as the builder is there. -/
structure HandlesKnown (s : Session) : Prop where
  number_lt : ∀ ref r, s.workspace.refs.get? ref = some r →
    r.builder.number < s.workspace.builderCount
  known : ∀ slot b ref r, s.workspace.builders.get? slot = some b →
    s.workspace.refs.get? ref = some r → r.builder = b.id → r.KnownTo b

theorem HandlesKnown.change (h : s.HandlesKnown) (hregistered : s.Registered)
    (hbuilders : s'.BuildersSound Builder.Holds) (hchange : Change s s') : s'.HandlesKnown := by
  have hcount := hchange.builderCount_le
  constructor
  case number_lt =>
    intro ref r hr
    rcases hchange.ref_cases hr with hold | ⟨builder, function, b, b', f, f', hb, -, hf, hmade⟩
    · exact Nat.lt_of_lt_of_le (h.number_lt ref r hold) hcount
    · have hlt := hregistered.number_lt f (.inl ⟨function, hf⟩)
      rw [Builder.appendBlock_ref hmade]
      exact Nat.lt_of_lt_of_le hlt hcount
  case known =>
    intro slot b' ref r hb' hr hid
    rcases hchange.ref_cases hr with hold | ⟨builder, function, b, b₁, f, f', hb, hb₁, hf, hmade⟩
    · rcases hchange.builder_cases hb' with rfl | ⟨b, hb, rfl | hstep⟩
      · -- No handle is older than its builder.
        have hlt := h.number_lt ref r hold
        rw [hid] at hlt
        exact absurd hlt (Nat.lt_irrefl _)
      · exact h.known slot b' ref r hb hold hid
      · have hlater := hstep.later
        rw [hlater.id] at hid
        exact (h.known slot b ref r hb hold hid).of_later hlater
    · -- The block was made just now, so that the builder is the one that made it.
      have hfid := (Builder.checkUnlinked_eq_ok (Builder.appendBlock_eq_ok hmade).1).1
      have hfknown := hregistered.known builder b f hb (.inl ⟨function, hf⟩) hfid
      have hrid : r.builder = f.builder := by rw [Builder.appendBlock_ref hmade]; rfl
      have hlater := (Builder.Step.appendBlock hmade).later
      have hslot := hbuilders.slot_eq builder slot b₁ b' hb₁ hb'
        (hlater.id.trans (hfid.symm.trans (hrid.symm.trans hid)))
      subst hslot
      rw [hb₁, Option.some.injEq] at hb'
      subst hb'
      exact .appendBlock hfknown hmade

theorem handlesKnown_after (cs : List Command) : (after cs).HandlesKnown := by
  induction cs using List.reverseRecOn with
  | nil => exact ⟨fun _ _ hr => (nomatch hr), fun _ _ _ _ hb => (nomatch hb)⟩
  | append_singleton cs c ih =>
    rw [after_concat]
    refine ih.change (registered_after cs) ?_ (step_change _ c)
    rw [← after_concat]
    exact buildersSound_after holds_invariant (cs ++ [c])

/-- At some time there was a handle of a block, or a function, of the given builder with the given
symbol. A reference that was made from it is one to this symbol and says nothing about the
builder. -/
def HadHandle (cs : List Command) (owner : BuilderId) (id : SymbolId) : Prop :=
  ∃ done rest, cs = done ++ rest ∧
    ((∃ slot r, (after done).workspace.refs.get? slot = some r ∧ r.builder = owner ∧
        r.symbol = id) ∨
      ∃ slot f, (after done).workspace.functions.get? slot = some f ∧ f.builder = owner ∧
        f.symbol = id)

theorem refKnownTo_of_earlier (done rest : List Command) {slot ref : String} {b : Builder}
    {r : BlockRef} (hb : (after (done ++ rest)).workspace.builders.get? slot = some b)
    (hr : (after done).workspace.refs.get? ref = some r) (hid : r.builder = b.id) :
    r.KnownTo b := by
  have hhandles := handlesKnown_after done
  have hlt := hhandles.number_lt ref r hr
  rw [hid] at hlt
  obtain ⟨b₀, hb₀, hlater⟩ := exists_earlier done rest hb hlt
  exact (hhandles.known slot b₀ ref r hb₀ hr (hid.trans hlater.id)).of_later hlater

theorem isSome_of_hadHandle {cs : List Command} {slot : String} {b : Builder} {id : SymbolId}
    (hb : (after cs).workspace.builders.get? slot = some b) (h : HadHandle cs b.id id) :
    (b.symbols.get? id).isSome := by
  have hnames := (registered_after cs).names slot b hb
  obtain ⟨done, rest, rfl, ⟨ref, r, hr, hid, rfl⟩ | ⟨function, f, hf, hid, rfl⟩⟩ := h
  · obtain ⟨name, -, hlabel⟩ := refKnownTo_of_earlier done rest hb hr hid
    exact hnames.labels.isSome hlabel
  · exact hnames.functions.isSome (knownTo_of_earlier done rest hb (.inl ⟨function, hf⟩) hid).name

end Session

/-! ## References of a function -/

/-- The fixup of an instruction that names a symbol is found behind its head. -/
theorem mem_fixupsFrom {start a : Nat} {is : List Instruction} {i : Instruction}
    (hi : (a, i) ∈ withAddresses start is) {id : SymbolId} (hid : i.symbol? = some id) :
    ⟨id, a + i.head.length⟩ ∈ fixupsFrom start is := by
  obtain ⟨before, after, rfl, rfl⟩ := mem_withAddresses.mp hi
  rw [fixupsFrom_append, fixupsFrom, Instruction.fixup?_of_symbol? hid]
  simp

theorem Function.Holds.exists_mem_fixups {f : Function} {text : List (List Instruction)}
    (h : f.Holds text) {i : Instruction} (hi : i ∈ text.flatten) {id : SymbolId}
    (hid : i.symbol? = some id) : ∃ g ∈ f.fixups, g.symbol = id := by
  obtain ⟨g, hg, rfl⟩ := exists_mem_fixupsFrom hi hid 0
  rw [← placedFrom_fixups h] at hg
  obtain ⟨p, hp, hg⟩ := List.mem_flatMap.mp hg
  obtain ⟨fixup, hfixup, rfl⟩ := List.mem_map.mp hg
  exact ⟨fixup, List.mem_flatMap.mpr ⟨p.2, (placedFrom_bounds hp).1, hfixup⟩, rfl⟩

namespace Builder

variable {b b' : Builder} {ls : List LinkedFunction} {f f' : Function}
  {text : List (List Instruction)}

theorem link_of_closed (hknown : f.builder = b.id → (b.symbols.get? f.symbol).isSome)
    (hclosed : ¬f.OpenIn b) : ∃ e, b.link f = .error (.error e) := by
  by_cases hid : f.builder = b.id
  · exact ⟨_, by rw [link, checkUnlinked_of_closed hid (hknown hid) hclosed]; rfl⟩
  · exact ⟨_, by rw [link, checkUnlinked_of_foreign hid]; rfl⟩

/-- A link is refused if the function refers to something outside of the arena, and the report names
such a reference. -/
theorem link_of_unknown (hknown : (b.symbols.get? f.symbol).isSome) (hopen : f.OpenIn b) {g : Fixup}
    (hg : g ∈ f.fixups) (hnone : b.symbols.get? g.symbol = none) :
    ∃ first ∈ f.fixups, b.symbols.get? first.symbol = none ∧
      b.link f = .error (.error (.unknownSymbol first.symbol)) := by
  cases hfind : f.fixups.find? fun fixup => (b.symbols.get? fixup.symbol).isNone with
  | none =>
    have hsome := List.find?_eq_none.mp hfind g hg
    simp [hnone] at hsome
  | some first =>
    -- The search stops at the first reference that is unknown, which need not be `g`.
    have hmem := List.mem_of_find?_eq_some hfind
    have hout := List.find?_some hfind
    refine ⟨first, hmem, Option.isNone_iff_eq_none.mp hout, ?_⟩
    simp [link, checkUnlinked_of_openIn hopen hknown, unknownSymbol?, hfind, bind, Except.bind]

/-- Where a symbol is named stands its address, or zero as long as it has none. -/
theorem Holds.readAddress_reference (h : b.Holds ls) {a : Nat} {i : Instruction}
    (hi : (a, i) ∈ withAddresses 0 (instructionsOf ls)) {id : SymbolId}
    (hid : i.symbol? = some id) :
    readAddress (b.code.toList.drop (a + i.head.length)) = some (b.symbols.valueOf id) := by
  have hvalue : b.symbols.valueOf id < addressLimit := by
    unfold Symbols.valueOf
    cases ha : b.symbols.addressOf? id with
    | none => decide
    | some address => exact Nat.lt_of_le_of_lt (h.address_le id address ha) h.code_lt
  rw [h.code]
  exact readAddress_codeAt hi hid hvalue

/-- What a reference of the function comes to when it is linked: the address of the symbol that has
this index here, or else the reference waits. -/
theorem Holds.reference_link (h : b.Holds ls) (hf : f.Holds text)
    (hlink : b.link f = .ok (b', f')) {a : Nat} {i : Instruction}
    (hi : (a, i) ∈ withAddresses b.code.size text.flatten) {id : SymbolId}
    (hid : i.symbol? = some id) :
    readAddress (b'.code.toList.drop (a + i.head.length)) = some (b'.symbols.valueOf id) ∧
      (⟨id, a + i.head.length⟩ ∈ b'.pending ↔ b'.symbols.addressOf? id = none) := by
  have hholds := h.link hf hlink
  -- The function stands behind all that was linked before.
  have hall : (a, i) ∈ withAddresses 0 (instructionsOf (ls ++ [⟨f, text⟩])) := by
    obtain ⟨before, after, heq, rfl⟩ := mem_withAddresses.mp hi
    rw [instructionsOf_concat, heq, ← List.append_assoc]
    refine mem_withAddresses.mpr ⟨_, after, rfl, ?_⟩
    rw [codeSize_append, h.size_code, Nat.zero_add]
  constructor
  · exact hholds.readAddress_reference hall hid
  · rw [hholds.pending, List.mem_filter, and_iff_right (mem_fixupsFrom hall hid)]
    exact Option.isNone_iff_eq_none

/-- Whatever an index in the function was meant for, the builder that links the function takes it
for one of its own arena. -/
structure TakesAsOwn (b : Builder) (f : Function) (text : List (List Instruction))
    (id : SymbolId) : Prop where
  refused : b.symbols.get? id = none → ∃ e, b.link f = .error (.error e)
  /-- The report names a reference that is outside of the arena. -/
  reported : b.symbols.get? id = none → f.OpenIn b →
    ∃ first ∈ f.fixups, b.symbols.get? first.symbol = none ∧
      b.link f = .error (.error (.unknownSymbol first.symbol))
  known : ∀ b' f', b.link f = .ok (b', f') → (b.symbols.get? id).isSome
  /-- The reference is written or waits, as one to the symbol that has this index here. -/
  served : ∀ b' f', b.link f = .ok (b', f') →
    ∀ a i, (a, i) ∈ withAddresses b.code.size text.flatten → i.symbol? = some id →
      readAddress (b'.code.toList.drop (a + i.head.length)) = some (b'.symbols.valueOf id) ∧
        (⟨id, a + i.head.length⟩ ∈ b'.pending ↔ b'.symbols.addressOf? id = none)

theorem Holds.takesAsOwn (h : b.Holds ls) (hf : f.linked = false → f.Holds text)
    (hknown : f.builder = b.id → (b.symbols.get? f.symbol).isSome) {id : SymbolId}
    (hnamed : ∃ i ∈ text.flatten, i.symbol? = some id) : b.TakesAsOwn f text id := by
  obtain ⟨i, hi, hid⟩ := hnamed
  have hreported : b.symbols.get? id = none → f.OpenIn b →
      ∃ first ∈ f.fixups, b.symbols.get? first.symbol = none ∧
        b.link f = .error (.error (.unknownSymbol first.symbol)) := by
    intro hnone hopen
    obtain ⟨g, hg, rfl⟩ := (hf hopen.linked).exists_mem_fixups hi hid
    exact link_of_unknown (hknown hopen.builder) hopen hg hnone
  constructor
  case refused =>
    intro hnone
    by_cases hopen : f.OpenIn b
    · obtain ⟨first, -, -, hlink⟩ := hreported hnone hopen
      exact ⟨_, hlink⟩
    · exact link_of_closed hknown hopen
  case reported => exact hreported
  case known =>
    intro b' f' hlink
    obtain ⟨-, hlinked, hfixups, -⟩ := link_eq_ok hlink
    obtain ⟨g, hg, rfl⟩ := (hf hlinked).exists_mem_fixups hi hid
    exact hfixups g hg
  case served =>
    intro b' f' hlink a j hj hjid
    exact h.reference_link (hf (link_eq_ok hlink).2.1) hlink hj hjid

end Builder

/-! ## Sessions with more than one builder -/

namespace Session

/-- **References do not know their builder.** Let a function refer to a function or block of some
other builder than the one that it is handed to. The symbol is in the arena of that other builder,
if it is still there, but this is not what the link looks at. If the index is outside of the arena
of the builder that links, then the link is refused; if it is inside, then the reference is one to
the symbol that has this index there. The other builder does not take part in any of it. -/
theorem foreign_reference (cs : List Command) (builder function : String) (b : Builder)
    (f : Function) (owner : BuilderId) (id : SymbolId)
    (hb : (after cs).workspace.builders.get? builder = some b)
    (hf : (after cs).workspace.functions.get? function = some f) (howner : owner ≠ b.id)
    (hhandle : HadHandle cs owner id)
    (hnamed : ∃ i ∈ ((after cs).textOf function).flatten, i.symbol? = some id) :
    b.TakesAsOwn f ((after cs).textOf function) id ∧
      ∀ other c, (after cs).workspace.builders.get? other = some c → c.id = owner →
        (c.symbols.get? id).isSome ∧
        (after (cs ++ [.link builder function])).workspace.builders.get? other = some c := by
  have hknown := (registered_after cs).known builder b f hb (.inl ⟨function, hf⟩)
  have hnames := (registered_after cs).names builder b hb
  constructor
  · exact (holds_after cs hb).takesAsOwn (functionsSound_after cs function f hf)
      (fun hid => hnames.functions.isSome (hknown hid).name) hnamed
  · rintro other c hc rfl
    -- The link puts one builder back, and the other one is in another slot.
    have hslot : other ≠ builder := by
      rintro rfl
      rw [hb, Option.some.injEq] at hc
      exact howner (congrArg Builder.id hc.symm)
    refine ⟨isSome_of_hadHandle hc hhandle, ?_⟩
    rw [after_concat, workspace_step]
    cases hlink : b.link f with
    | error e =>
      simp [Command.step, Workspace.link, hb, hf, hlink, Except.mapError, hc]
    | ok result =>
      simp [Command.step, Workspace.link, hb, hf, hlink, Except.mapError, Slots.get?_set, hslot, hc]

/-- Two builders with a function of two blocks each. The first function jumps to the second block of
the other one. -/
def crossReference : List Command :=
  [ .newBuilder "a" initialCapacity,
    .newBuilder "b" initialCapacity,
    .newFunction "a" "main" "main",
    .appendBlock "a" "main" "entry",
    .appendBlock "a" "main" "exit",
    .newFunction "b" "other" "other",
    .appendBlock "b" "other" "first",
    .appendBlock "b" "other" "second",
    .emit "main" "entry" (.word .jmp (some (.symbol ⟨2⟩))) 1 ]

/-- The jump is linked without complaint, and it leads to the second block of its own function. -/
theorem link_crossReference : ∃ a main second a' main',
    (after crossReference).workspace.builders.get? "a" = some a ∧
    (after crossReference).workspace.functions.get? "main" = some main ∧
    (after crossReference).workspace.refs.get? "second" = some second ∧
    main.builder = a.id ∧ second.builder ≠ a.id ∧
    main.fixups = [⟨second.symbol, 1⟩] ∧ a.link main = .ok (a', main') ∧
    a'.code = #[0x6B, 9, 0, 0, 0, 0, 0, 0, 0] ∧
    a'.symbols.get? second.symbol = some ⟨"main.1", some 9, 0⟩ := by
  have hsession : ((after crossReference).workspace.builders.get? "a").bind (fun a =>
      ((after crossReference).workspace.functions.get? "main").bind fun main =>
        ((after crossReference).workspace.refs.get? "second").bind fun second =>
          (a.link main).toOption.map fun result =>
            (decide (main.builder = a.id), decide (second.builder = a.id),
              decide (main.fixups = [⟨second.symbol, 1⟩]), result.1.code,
              result.1.symbols.get? second.symbol)) =
      some (true, false, true, #[0x6B, 9, 0, 0, 0, 0, 0, 0, 0], some ⟨"main.1", some 9, 0⟩) := by
    decide +kernel
  obtain ⟨a, ha, hsession⟩ := Option.bind_eq_some_iff.mp hsession
  obtain ⟨main, hmain, hsession⟩ := Option.bind_eq_some_iff.mp hsession
  obtain ⟨second, hsecond, hsession⟩ := Option.bind_eq_some_iff.mp hsession
  obtain ⟨⟨a', main'⟩, hlink, hsession⟩ := Option.map_eq_some_iff.mp hsession
  simp only [Prod.mk.injEq, decide_eq_true_eq, decide_eq_false_iff_not] at hsession
  obtain ⟨hown, hforeign, hfixups, hcode, hsymbol⟩ := hsession
  exact ⟨a, main, second, a', main', ha, hmain, hsecond, hown, hforeign, hfixups,
    toOption_eq_some.mp hlink, hcode, hsymbol⟩

/-- One more block in the other function, and a call of it from the first one. -/
def farReference : List Command :=
  crossReference ++
    [ .appendBlock "b" "other" "third",
      .emit "main" "exit" (.word .call (some (.symbol ⟨3⟩))) 1 ]

/-- The first arena is too small for this reference, so the link is refused. -/
theorem foreign_farReference : ∃ a b main,
    (after farReference).workspace.builders.get? "a" = some a ∧
    (after farReference).workspace.builders.get? "b" = some b ∧
    (after farReference).workspace.functions.get? "main" = some main ∧
    a.symbols.get? ⟨3⟩ = none ∧ (b.symbols.get? ⟨3⟩).isSome ∧
    a.link main = .error (.error (.unknownSymbol ⟨3⟩)) ∧
    (after (farReference ++ [.link "a" "main"])).workspace.builders.get? "b" = some b := by
  have hnear : ((after farReference).workspace.builders.get? "a").map (fun a =>
      (a.id, a.symbols.addressOf? ⟨0⟩, a.symbols.size)) = some (⟨0⟩, none, 3) := by
    decide +kernel
  have hfar : ((after farReference).workspace.builders.get? "b").map Builder.id = some ⟨1⟩ := by
    decide +kernel
  have hfunction : ((after farReference).workspace.functions.get? "main").map (fun main =>
      (main.symbol, main.builder, main.linked, main.fixups)) =
      some (⟨0⟩, ⟨0⟩, false, [⟨⟨2⟩, 1⟩, ⟨⟨3⟩, 1⟩]) := by
    decide +kernel
  have hthird : (after farReference).workspace.refs.get? "third" =
      some { builder := ⟨1⟩, function := ⟨0⟩, index := 2, symbol := ⟨3⟩ } := by
    decide +kernel
  have htext : ((after farReference).textOf "main").flatten =
      [.word .jmp (some (.symbol ⟨2⟩)), .word .call (some (.symbol ⟨3⟩))] := by
    decide +kernel
  obtain ⟨a, ha, hnear⟩ := Option.map_eq_some_iff.mp hnear
  obtain ⟨b, hb, hbid⟩ := Option.map_eq_some_iff.mp hfar
  obtain ⟨main, hmain, hfunction⟩ := Option.map_eq_some_iff.mp hfunction
  simp only [Prod.mk.injEq] at hnear hfunction
  obtain ⟨haid, hunplaced, hsize⟩ := hnear
  obtain ⟨hsymbol, hown, hlinked, hfixups⟩ := hfunction
  have hnone : a.symbols.get? ⟨3⟩ = none :=
    Symbols.get?_eq_none_iff.mpr (Nat.le_of_eq hsize)
  have hhandle : HadHandle farReference ⟨1⟩ ⟨3⟩ :=
    ⟨farReference, [], by rw [List.append_nil], .inl ⟨"third", _, hthird, rfl, rfl⟩⟩
  have hnamed : ∃ i ∈ ((after farReference).textOf "main").flatten, i.symbol? = some ⟨3⟩ := by
    rw [htext]
    exact ⟨.word .call (some (.symbol ⟨3⟩)), by simp, rfl⟩
  obtain ⟨htakes, hother⟩ := foreign_reference farReference "a" "main" a main ⟨1⟩ ⟨3⟩ ha hmain
    (by rw [haid]; decide) hhandle hnamed
  obtain ⟨hsome, hkept⟩ := hother "b" b hb hbid
  obtain ⟨first, hfirst, hout, hlink⟩ :=
    htakes.reported hnone ⟨hown.trans haid.symm, hlinked, by rw [hsymbol, hunplaced]⟩
  refine ⟨a, b, main, ha, hb, hmain, hnone, hsome, ?_, hkept⟩
  -- The jump has an index that is in the first arena, so it is the call that is reported.
  rw [hfixups, List.mem_pair] at hfirst
  rcases hfirst with rfl | rfl
  · rw [Symbols.get?_eq_none_iff, hsize] at hout
    cases Nat.lt_irrefl 2 hout
  · exact hlink

end Session

end ImageLinker
