import ImageLinker.Proofs.Safety
import Mathlib.Data.List.Induction

/-!
# Requests for blocks

A builder gives the next block to any function that is its own and has no place in the image yet,
with one exception. The label of the block is made of the name of the function and the number of its
blocks, and copies of a function share the name while each of them counts for itself. A copy that
has fallen behind is refused, since its next label is taken; and the refusal comes after the symbol
of the block was created, so that the arena keeps a symbol that no name leads to.

* `Session.label_origin`: a label is in the table because some function had that block at some time.
* `Session.Outgrown`: some value of a function had more blocks than it has.
* `Session.label_taken_iff`: the next label is taken exactly if the function is outgrown.
* `Session.blockRequest_after`: all answers to a request, with what it leaves behind.
-/

namespace ImageLinker

/-! ## Where labels come from -/

theorem Builder.labels_newFunction {b b' : Builder} {name : String}
    {result : Except BuildError Function} (h : b.newFunction name = (result, b')) :
    b'.names.labels = b.names.labels := by
  rcases newFunction_cases h with ⟨-, rfl | rfl⟩ | ⟨functions, -, -, rfl⟩ <;> rfl

namespace Session

variable {s s' : Session}

/-- A label was in the table before, or belongs to a block that was made just now. -/
theorem Change.label_cases (h : Change s s') {slot label : String} {b' : Builder} {id : SymbolId}
    (hb' : s'.workspace.builders.get? slot = some b')
    (hentry : (label, id) ∈ b'.names.labels.entries) :
    (∃ b, s.workspace.builders.get? slot = some b ∧ b.id = b'.id ∧
      (label, id) ∈ b.names.labels.entries) ∨
    ∃ function f, ∃ k < f.blocks.size, s'.workspace.functions.get? function = some f ∧
      f.builder = b'.id ∧ label = blockLabel f.name k := by
  -- All changes but one put a builder with the same labels back into its slot, if any.
  have hset : ∀ {builder : String} {b b₁ : Builder},
      s.workspace.builders.get? builder = some b → b₁.id = b.id →
      b₁.names.labels = b.names.labels →
      (s.workspace.builders.set builder b₁).get? slot = some b' →
      ∃ b, s.workspace.builders.get? slot = some b ∧ b.id = b'.id ∧
        (label, id) ∈ b.names.labels.entries := by
    intro builder b b₁ hb hid hlabels hget
    rw [Slots.get?_set] at hget
    split at hget
    · rename_i hslot
      cases hget
      exact ⟨b, by rw [hslot, hb], hid.symm, by rw [← hlabels]; exact hentry⟩
    · exact ⟨b', hget, rfl, hentry⟩
  cases h with
  | aside => exact .inl ⟨b', hb', rfl, hentry⟩
  | builderMade made =>
    rw [Slots.get?_set] at hb'
    split at hb'
    · cases hb'
      cases hentry
    · exact .inl ⟨b', hb', rfl, hentry⟩
  | functionMade made hb h =>
    exact .inl (hset hb (Builder.sameImage_newFunction h).id (Builder.labels_newFunction h) hb')
  | functionRefused hb h =>
    exact .inl (hset hb (Builder.sameImage_newFunction h).id (Builder.labels_newFunction h) hb')
  | functionCopied => exact .inl ⟨b', hb', rfl, hentry⟩
  | @blockMade builder function b b₁ f f' r made hb hf h =>
    rw [Slots.get?_set] at hb'
    split at hb'
    · rename_i hslot
      cases hb'
      rcases Builder.appendBlock_cases h with ⟨⟨e, he⟩, -⟩ | ⟨labels, hcheck, hinsert, hresult, rfl⟩
      · cases he
      cases hresult
      have hentries := NameTable.entries_insert hinsert
      simp only at hentry
      rw [hentries] at hentry
      rcases List.mem_cons.mp hentry with hnew | hold
      · cases hnew
        refine .inr ⟨function, f.pushBlock b.symbols.nextId, f.blocks.size, ?_,
          Slots.get?_set_self _ _ _, (Builder.checkUnlinked_eq_ok hcheck).1, f.nextLabel_eq⟩
        simp [Function.pushBlock]
      · exact .inl ⟨b, by rw [hslot, hb], rfl, hold⟩
    · exact .inl ⟨b', hb', rfl, hentry⟩
  | blockRefused hb hf h =>
    refine .inl (hset hb (Builder.sameImage_appendBlock h).id ?_ hb')
    rcases Builder.appendBlock_cases h with ⟨-, rfl | rfl⟩ | ⟨labels, -, -, hresult, -⟩
    · rfl
    · rfl
    · cases hresult
  | written => exact .inl ⟨b', hb', rfl, hentry⟩
  | linked journal hb hf h =>
    obtain ⟨-, hnames, hid⟩ := Builder.link_symbols_names h
    exact .inl (hset hb hid (by rw [hnames]) hb')
  | @globalsChanged builder b globals journal hb =>
    have hid : Builder.id { b with globals } = b.id := rfl
    exact .inl (hset hb hid rfl hb')
  | finished builder images journal =>
    rw [Slots.get?_erase] at hb'
    split at hb'
    · cases hb'
    · exact .inl ⟨b', hb', rfl, hentry⟩

theorem after_concat (cs : List Command) (c : Command) : after (cs ++ [c]) = (after cs).step c := by
  rw [after, after, List.foldl_append]
  rfl

/-- **Where labels come from.** If a label is in the table of a builder, then at some time during
the session a function of that builder had the block. Induction on the commands, the last one first.
-/
theorem label_origin (cs : List Command) {slot label : String} {b : Builder} {id : SymbolId}
    (hb : (after cs).workspace.builders.get? slot = some b)
    (hentry : (label, id) ∈ b.names.labels.entries) :
    ∃ done rest function f, ∃ k < f.blocks.size, cs = done ++ rest ∧
      (after done).workspace.functions.get? function = some f ∧
      f.builder = b.id ∧ label = blockLabel f.name k := by
  induction cs using List.reverseRecOn generalizing slot b with
  | nil => cases hb
  | append_singleton cs c ih =>
    rw [after_concat] at hb
    rcases (step_change (after cs) c).label_cases hb hentry with
      ⟨b₀, hb₀, hid, hentry₀⟩ | ⟨function, f, k, hk, hf, hbuilder, hlabel⟩
    · obtain ⟨done, rest, function, f, k, hk, rfl, hf, hbuilder, hlabel⟩ := ih hb₀ hentry₀
      exact ⟨done, rest ++ [c], function, f, k, hk, by rw [List.append_assoc], hf,
        hbuilder.trans hid, hlabel⟩
    · rw [← after_concat] at hf
      exact ⟨cs ++ [c], [], function, f, k, hk, by rw [List.append_nil], hf, hbuilder, hlabel⟩

/-! ## Labels that are taken -/

/-- Some function with the same symbol, which is an earlier value or a copy, had more blocks at some
time than the function has. -/
def Outgrown (cs : List Command) (f : Function) : Prop :=
  ∃ done rest slot g, cs = done ++ rest ∧ (after done).workspace.functions.get? slot = some g ∧
    g.builder = f.builder ∧ g.symbol = f.symbol ∧ f.blocks.size < g.blocks.size

/-- A builder whose number was given out by some time was in its slot at that time. -/
theorem exists_earlier (done rest : List Command) {slot : String} {b : Builder}
    (hb : (after (done ++ rest)).workspace.builders.get? slot = some b)
    (hlt : b.id.number < (after done).workspace.builderCount) :
    ∃ b₀, (after done).workspace.builders.get? slot = some b₀ ∧ b₀.Later b := by
  rcases (evolves_append done rest).later slot b hb with hnew | hold
  · omega
  · exact hold

theorem knownTo_of_earlier (done rest : List Command) {slot : String} {b : Builder} {f : Function}
    (hb : (after (done ++ rest)).workspace.builders.get? slot = some b)
    (hf : (after done).HasFunction f) (hid : f.builder = b.id) : f.KnownTo b := by
  have hregistered := registered_after done
  have hlt := hregistered.number_lt f hf
  rw [hid] at hlt
  obtain ⟨b₀, hb₀, hlater⟩ := exists_earlier done rest hb hlt
  exact (hregistered.known slot b₀ f hb₀ hf (hid.trans hlater.id)).of_later hlater

/-- **Which labels are taken.** The number of its blocks and the name tell a function apart from all
others that are not copies of it, so only a copy can have taken its next label. -/
theorem label_taken_iff (cs : List Command) {builder function : String} {b : Builder}
    {f : Function} (hb : (after cs).workspace.builders.get? builder = some b)
    (hf : (after cs).workspace.functions.get? function = some f) (hid : f.builder = b.id) :
    f.nextLabel ∈ b.names.labels.entries.map Prod.fst ↔ Outgrown cs f := by
  have hknown := (registered_after cs).known builder b f hb (.inl ⟨function, hf⟩) hid
  rw [Function.nextLabel_eq]
  constructor
  · intro htaken
    obtain ⟨⟨label, id⟩, hentry, hlabel⟩ := List.mem_map.mp htaken
    obtain ⟨done, rest, slot, g, k, hk, rfl, hg, hgid, hgk⟩ := label_origin cs hb hentry
    have hgknown := knownTo_of_earlier done rest hb (.inl ⟨slot, hg⟩) hgid
    -- The label gives away the name and the number of the block, and the name gives the symbol.
    obtain ⟨hname, hsize⟩ := blockLabel_inj (hgk.symm.trans hlabel)
    have hentry' := hgknown.name
    rw [hname] at hentry'
    exact ⟨done, rest, slot, g, rfl, hg, hgid.trans hid.symm,
      NameTable.id_eq hentry' hknown.name, by omega⟩
  · rintro ⟨done, rest, slot, g, rfl, hg, hgid, hsymbol, hlt⟩
    have hgknown := knownTo_of_earlier done rest hb (.inl ⟨slot, hg⟩) (hgid.trans hid)
    have hname : g.name = f.name := by
      have hentry := hgknown.name
      rw [hsymbol] at hentry
      exact NameTable.name_eq hentry hknown.name
    -- The block of `g` with the number that is next for `f` has the label already.
    have hblock : (g.blocks.toList.map Block.symbol)[f.blocks.size]? =
        some (g.blocks[f.blocks.size]).symbol := by
      simp [hlt]
    have hentry := hgknown.labels _ _ hblock
    rw [hname] at hentry
    exact List.mem_map_of_mem hentry

end Session

/-! ## Answers -/

namespace Builder

variable {b : Builder} {f : Function}

theorem checkUnlinked_of_foreign (h : f.builder ≠ b.id) :
    b.checkUnlinked f = .error (.error (.foreignFunction f.name)) :=
  if_pos h

theorem checkUnlinked_of_closed (hid : f.builder = b.id) (hknown : (b.symbols.get? f.symbol).isSome)
    (hclosed : ¬f.OpenIn b) : b.checkUnlinked f = .error (.error (.alreadyLinked f.name)) := by
  obtain ⟨symbol, hsymbol⟩ := Option.isSome_iff_exists.mp hknown
  unfold checkUnlinked
  rw [if_neg (by simpa using hid), Symbols.get_eq_ok_iff.mpr hsymbol]
  cases hlinked : f.linked with
  | true => rfl
  | false =>
    -- The function was not linked itself, so it must be a copy that was.
    cases haddress : symbol.address with
    | some a => simp [Symbol.isResolved, haddress]
    | none => exact absurd ⟨hid, hlinked, by simp [Symbols.addressOf?, hsymbol, haddress]⟩ hclosed

theorem checkUnlinked_of_openIn (h : f.OpenIn b) (hknown : (b.symbols.get? f.symbol).isSome) :
    b.checkUnlinked f = .ok () := by
  obtain ⟨symbol, hsymbol⟩ := Option.isSome_iff_exists.mp hknown
  have haddress := h.unplaced
  rw [Symbols.addressOf?, hsymbol, Option.bind_some] at haddress
  simp [checkUnlinked, h.builder, h.linked, Symbols.get_eq_ok_iff.mpr hsymbol, Symbol.isResolved,
    haddress]

/-- How a builder answers when a function asks for its next block, and what the builder is then.
`outgrown` stands for the one reason of refusal that neither of the two tells by itself. -/
structure BlockRequest (b : Builder) (f : Function) (outgrown : Prop) : Prop where
  foreign : f.builder ≠ b.id → b.appendBlock f = (.error (.error (.foreignFunction f.name)), b)
  closed : f.builder = b.id → ¬f.OpenIn b →
    b.appendBlock f = (.error (.error (.alreadyLinked f.name)), b)
  made : f.OpenIn b → ¬outgrown →
    ∃ labels, b.names.labels.insert f.nextLabel b.symbols.nextId = .ok labels ∧
      b.appendBlock f = (.ok (f.nextRef b.symbols.nextId, f.pushBlock b.symbols.nextId),
        { b with
          symbols := b.symbols.push f.nextLabel
          names := { b.names with labels } })
  /-- The symbol that was made for the block stays behind without a name. -/
  behind : f.OpenIn b → outgrown →
    b.appendBlock f = (.error (.error (.duplicateSymbol f.nextLabel)),
      { b with symbols := b.symbols.push f.nextLabel }) ∧
    ∀ name, (name, b.symbols.nextId) ∉ b.names.functions.entries ∧
      (name, b.symbols.nextId) ∉ b.names.labels.entries

theorem BlockRequest.exists_ok_iff {outgrown : Prop} (h : b.BlockRequest f outgrown) :
    (∃ made, (b.appendBlock f).1 = .ok made) ↔ f.OpenIn b ∧ ¬outgrown := by
  constructor
  · rintro ⟨made, hmade⟩
    by_cases hid : f.builder = b.id
    · by_cases hopen : f.OpenIn b
      · refine ⟨hopen, fun hbehind => ?_⟩
        rw [(h.behind hopen hbehind).1] at hmade
        cases hmade
      · rw [h.closed hid hopen] at hmade
        cases hmade
    · rw [h.foreign hid] at hmade
      cases hmade
  · rintro ⟨hopen, hbehind⟩
    obtain ⟨labels, -, hmade⟩ := h.made hopen hbehind
    exact ⟨_, by rw [hmade]⟩

/-- All that a request depends on is whether the label is taken: the symbol is always a new one. -/
theorem blockRequest (hnames : b.NamesSound)
    (hknown : f.builder = b.id → (b.symbols.get? f.symbol).isSome) {outgrown : Prop}
    (htaken : f.builder = b.id →
      (f.nextLabel ∈ b.names.labels.entries.map Prod.fst ↔ outgrown)) :
    b.BlockRequest f outgrown := by
  have hnameless : ∀ name, (name, b.symbols.nextId) ∉ b.names.functions.entries ∧
      (name, b.symbols.nextId) ∉ b.names.labels.entries := fun name =>
    ⟨fun h => hnames.functions.ne_nextId h rfl, fun h => hnames.labels.ne_nextId h rfl⟩
  constructor
  case foreign =>
    intro hid
    rw [appendBlock, checkUnlinked_of_foreign hid]
  case closed =>
    intro hid hclosed
    rw [appendBlock, checkUnlinked_of_closed hid (hknown hid) hclosed]
  case made =>
    intro hopen hfree
    have hlabel := mt (htaken hopen.builder).mp hfree
    have hnew : b.symbols.nextId ∉ b.names.labels.entries.map Prod.snd := by
      intro hmem
      obtain ⟨⟨name, id⟩, hentry, rfl⟩ := List.mem_map.mp hmem
      exact (hnameless name).2 hentry
    obtain ⟨labels, hinsert⟩ : ∃ labels,
        b.names.labels.insert f.nextLabel b.symbols.nextId = .ok labels := by
      rw [NameTable.insert, dif_neg (not_or.mpr ⟨hlabel, hnew⟩)]
      exact ⟨_, rfl⟩
    refine ⟨labels, hinsert, ?_⟩
    simp [appendBlock, checkUnlinked_of_openIn hopen (hknown hopen.builder), hinsert]
  case behind =>
    intro hopen hbehind
    have hlabel := (htaken hopen.builder).mpr hbehind
    have hinsert : b.names.labels.insert f.nextLabel b.symbols.nextId =
        .error (.duplicateSymbol f.nextLabel) := by
      rw [NameTable.insert, dif_pos (.inl hlabel)]
    refine ⟨?_, hnameless⟩
    simp [appendBlock, checkUnlinked_of_openIn hopen (hknown hopen.builder), hinsert]

end Builder

/-! ## Sessions -/

namespace Session

/-- **Requests for blocks.** After any commands, a function gets its next block from a builder if
and only if it is a function of that builder without a place in the image, and no copy of it is
ahead of it. If it is foreign or has its place, then the request changes nothing. If a copy is
ahead, then the request fails as well, for the label, and leaves a symbol without a name in the
arena; all else, the function included, is as before. -/
theorem blockRequest_after (cs : List Command) (builder function ref : String) (b : Builder)
    (f : Function) (hb : (after cs).workspace.builders.get? builder = some b)
    (hf : (after cs).workspace.functions.get? function = some f) :
    b.BlockRequest f (Outgrown cs f) ∧
      ((∃ made, (b.appendBlock f).1 = .ok made) ↔ f.OpenIn b ∧ ¬Outgrown cs f) ∧
      ∀ e, (b.appendBlock f).1 = .error e →
        (after (cs ++ [.appendBlock builder function ref])).workspace =
          { (after cs).workspace with
            builders := (after cs).workspace.builders.set builder (b.appendBlock f).2 } := by
  have hnames := (registered_after cs).names builder b hb
  have hrequest := Builder.blockRequest hnames
    (fun hid => hnames.functions.isSome
      ((registered_after cs).known builder b f hb (.inl ⟨function, hf⟩) hid).name)
    (label_taken_iff cs hb hf)
  refine ⟨hrequest, hrequest.exists_ok_iff, ?_⟩
  intro e he
  have hexec : (Command.appendBlock builder function ref).step.exec (after cs).workspace =
      (.error (Step.refusal e), { (after cs).workspace with
        builders := (after cs).workspace.builders.set builder (b.appendBlock f).2 }) := by
    simp [Command.step, Workspace.appendBlock, hb, hf, he, Except.mapError]
  rw [after_concat, step_of_refusal hexec]

/-- A function is copied, and then it gets a block that its copy does not have. -/
def copyBehind : List Command :=
  [ .newBuilder "b" initialCapacity,
    .newFunction "b" "main" "main",
    .copyFunction "main" "copy",
    .appendBlock "b" "main" "entry" ]

/-- The copy is outgrown, so it is refused though it is open; the function itself goes on. -/
theorem blockRequest_copyBehind : ∃ b main copy,
    (after copyBehind).workspace.builders.get? "b" = some b ∧
    (after copyBehind).workspace.functions.get? "main" = some main ∧
    (after copyBehind).workspace.functions.get? "copy" = some copy ∧
    b.BlockRequest main (Outgrown copyBehind main) ∧
    copy.OpenIn b ∧ Outgrown copyBehind copy ∧ ¬∃ made, (b.appendBlock copy).1 = .ok made := by
  have hbuilder : ((after copyBehind).workspace.builders.get? "b").map (fun b =>
      (b.id, b.symbols.addressOf? ⟨0⟩)) = some (⟨0⟩, none) := by
    decide +kernel
  have hmain : (after copyBehind).workspace.functions.get? "main" =
      some { name := "main", symbol := ⟨0⟩, builder := ⟨0⟩, blocks := #[{ symbol := ⟨1⟩ }] } := by
    decide +kernel
  have hcopy : (after copyBehind).workspace.functions.get? "copy" =
      some { name := "main", symbol := ⟨0⟩, builder := ⟨0⟩ } := by
    decide +kernel
  obtain ⟨b, hb, hbuilder⟩ := Option.map_eq_some_iff.mp hbuilder
  rw [Prod.mk.injEq] at hbuilder
  have hopen : Function.OpenIn { name := "main", symbol := ⟨0⟩, builder := ⟨0⟩ } b :=
    ⟨hbuilder.1.symm, rfl, hbuilder.2⟩
  have houtgrown : Outgrown copyBehind { name := "main", symbol := ⟨0⟩, builder := ⟨0⟩ } :=
    ⟨copyBehind, [], "main", _, by rw [List.append_nil], hmain, rfl, rfl, by decide⟩
  have hrefused := (blockRequest_after copyBehind "b" "copy" "r" b _ hb hcopy).2.1
  exact ⟨b, _, _, hb, hmain, hcopy,
    (blockRequest_after copyBehind "b" "main" "r" b _ hb hmain).1, hopen, houtgrown,
    fun hmade => (hrefused.mp hmade).2 houtgrown⟩

/-- The request of the copy fails for a name, and afterwards the builder has a symbol more. -/
theorem appendBlock_copyBehind : ∃ b copy,
    (after copyBehind).workspace.builders.get? "b" = some b ∧
    (after copyBehind).workspace.functions.get? "copy" = some copy ∧
    copy.builder = b.id ∧ copy.linked = false ∧ b.symbols.addressOf? copy.symbol = none ∧
    (b.appendBlock copy).1 = .error (.error (.duplicateSymbol "main.0")) ∧
    (b.appendBlock copy).2 ≠ b := by
  have hsession : ((after copyBehind).workspace.builders.get? "b").bind (fun b =>
      ((after copyBehind).workspace.functions.get? "copy").map fun copy =>
        (decide (copy.builder = b.id), copy.linked, b.symbols.addressOf? copy.symbol,
          decide ((b.appendBlock copy).1 = .error (.error (.duplicateSymbol "main.0"))),
          b.symbols.size, (b.appendBlock copy).2.symbols.size)) =
      some (true, false, none, true, 2, 3) := by
    decide +kernel
  obtain ⟨b, hb, hsession⟩ := Option.bind_eq_some_iff.mp hsession
  obtain ⟨copy, hcopy, hsession⟩ := Option.map_eq_some_iff.mp hsession
  simp only [Prod.mk.injEq, decide_eq_true_eq] at hsession
  obtain ⟨hid, hlinked, haddress, herror, hbefore, hafter⟩ := hsession
  refine ⟨b, copy, hb, hcopy, hid, hlinked, haddress, herror, fun hsame => ?_⟩
  rw [hsame, hbefore] at hafter
  cases hafter

end Session

end ImageLinker
