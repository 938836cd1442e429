import ImageLinker.Proofs.Handles

/-!
# Names and the symbols they lead to

Three structures speak of the symbols of a program: the arena, the table of functions and the table
of labels. They are changed one after the other, names are arbitrary texts that may look like the
labels of other functions, and copies of a function compete for the same labels. Still, a name leads
to one symbol, the symbol bears that name, and this stays so.

* `NameTable.get?_eq_some_iff`, `NameTable.name?_eq_some_iff`: both ways of asking a table are
  membership, so that each undoes the other.
* `Names.Describe`: what the tables say is what the arena says.
* `Session.Henceforth`: what holds of the names of a builder from some time on.
* `Session.names_after`: all of this in every session.
-/

namespace ImageLinker

/-! ## Asking a table -/

namespace NameTable

variable {t : NameTable} {name : String} {id : SymbolId}

theorem lookup_eq_some_iff {entries : List (String × SymbolId)}
    (hnodup : (entries.map Prod.fst).Nodup) :
    entries.lookup name = some id ↔ (name, id) ∈ entries := by
  induction entries with
  | nil => simp
  | cons entry entries ih =>
    obtain ⟨other, found⟩ := entry
    rw [List.map_cons, List.nodup_cons] at hnodup
    have hrest := ih hnodup.2
    by_cases hname : name = other
    · subst hname
      -- The name is taken, so that no entry behind this one has it.
      have hnone : (name, id) ∉ entries := fun hmem =>
        hnodup.1 (List.mem_map.mpr ⟨_, hmem, rfl⟩)
      simp [hnone, eq_comm]
    · simp [List.lookup_cons, beq_false_of_ne hname, hname, hrest]

theorem get?_eq_some_iff : t.get? name = some id ↔ (name, id) ∈ t.entries :=
  lookup_eq_some_iff t.names_nodup

theorem name?_eq_some_iff : t.name? id = some name ↔ (name, id) ∈ t.entries := by
  unfold name?
  constructor
  · intro h
    obtain ⟨⟨found, other⟩, hfind, hname⟩ := Option.map_eq_some_iff.mp h
    have hid : other = id := by simpa using List.find?_some hfind
    show (name, id) ∈ t.entries
    rw [← hid, ← hname]
    exact List.mem_of_find?_eq_some hfind
  · intro hentry
    cases hfind : t.entries.find? fun entry => entry.2 == id with
    | none =>
      have hnone := List.find?_eq_none.mp hfind (name, id) hentry
      simp at hnone
    | some entry =>
      have hid : entry.2 = id := by simpa using List.find?_some hfind
      have hmem : (entry.1, id) ∈ t.entries := by
        rw [← hid]
        exact List.mem_of_find?_eq_some hfind
      show some entry.1 = some name
      rw [name_eq hmem hentry]

end NameTable

/-! ## Tables and arena -/

/-- The tables of names are one-to-one and have no symbol in common, and every symbol in them is in
the arena, under the name that the table has for it. -/
structure Names.Describe (names : Names) (symbols : Symbols) : Prop where
  function_iff : ∀ name id,
    names.functions.get? name = some id ↔ names.functions.name? id = some name
  label_iff : ∀ label id, names.labels.get? label = some id ↔ names.labels.name? id = some label
  disjoint : ∀ id, names.functions.name? id = none ∨ names.labels.name? id = none
  function_named : ∀ name id, names.functions.get? name = some id →
    (symbols.get? id).map Symbol.name = some name
  label_named : ∀ label id, names.labels.get? label = some id →
    (symbols.get? id).map Symbol.name = some label

theorem Builder.NamesSound.describe {b : Builder} (h : b.NamesSound) :
    b.names.Describe b.symbols where
  function_iff name id := by rw [NameTable.get?_eq_some_iff, NameTable.name?_eq_some_iff]
  label_iff label id := by rw [NameTable.get?_eq_some_iff, NameTable.name?_eq_some_iff]
  disjoint id := by
    cases hname : b.names.functions.name? id with
    | none => exact .inl rfl
    | some name =>
      right
      rw [Option.eq_none_iff_forall_ne_some]
      intro label hlabel
      exact h.disjoint name label id (NameTable.name?_eq_some_iff.mp hname)
        (NameTable.name?_eq_some_iff.mp hlabel)
  function_named name id hname := h.functions name id (NameTable.get?_eq_some_iff.mp hname)
  label_named label id hlabel := h.labels label id (NameTable.get?_eq_some_iff.mp hlabel)

section Lookup

variable {names : Names} {name : String} {id : SymbolId}

theorem Names.lookup?_of_function (h : names.functions.get? name = some id) :
    names.lookup? name = some id := by
  unfold lookup?
  rw [h]
  rfl

/-- The label of a block is found unless a function has taken the same name. -/
theorem Names.lookup?_of_label (h : names.labels.get? name = some id) :
    names.lookup? name = (names.functions.get? name).or (some id) := by
  unfold lookup?
  rw [h]
  cases names.functions.get? name <;> rfl

end Lookup

/-! ## Sessions -/

namespace Session

/-- From the end of these commands on, whatever commands follow, this holds of the names of a
builder, and of those of the image that it completes. -/
def Henceforth (cs : List Command) (id : BuilderId) (P : Names → Prop) : Prop :=
  ∀ cs' slot b, (after (cs ++ cs')).workspace.builders.get? slot = some b → b.id = id →
    P b.names ∧ ∀ image, b.finish = .ok image → P image.names

theorem henceforth_of_later {cs : List Command} {slot : String} {b : Builder} {P : Names → Prop}
    (hb : (after cs).workspace.builders.get? slot = some b) (h : ∀ c, b.Later c → P c.names) :
    Henceforth cs b.id P := by
  intro cs' slot' c hc hid
  have hnames := h c (later_append cs cs' hb hc hid)
  refine ⟨hnames, ?_⟩
  intro image himage
  obtain ⟨-, rfl⟩ := (holds_after _ hc).finish_eq_ok himage
  exact hnames

section Requests

variable {cs : List Command} {slot : String} {b b' : Builder}

theorem henceforth_newFunction {name : String} {f : Function} (into : String)
    (hb : (after cs).workspace.builders.get? slot = some b)
    (hmade : b.newFunction name = (.ok f, b')) :
    Henceforth (cs ++ [.newFunction slot name into]) b.id
      fun names => names.functions.get? name = some f.symbol := by
  have hb' : (after (cs ++ [.newFunction slot name into])).workspace.builders.get? slot =
      some b' := by
    rw [after_concat, workspace_step]
    simp [Command.step, Workspace.newFunction, hb, hmade, Except.mapError]
  have hid := (Builder.Step.newFunction hmade).later.id
  have hname : f.name = name := by rw [Builder.newFunction_eq_ok hmade]
  have hknown := Function.KnownTo.newFunction hmade
  rw [← hid]
  refine henceforth_of_later hb' fun c hlater => ?_
  rw [← hname]
  exact NameTable.get?_eq_some_iff.mpr (hknown.of_later hlater).name

theorem henceforth_appendBlock {function : String} {f f' : Function} {r : BlockRef} (ref : String)
    (hb : (after cs).workspace.builders.get? slot = some b)
    (hf : (after cs).workspace.functions.get? function = some f)
    (hmade : b.appendBlock f = (.ok (r, f'), b')) :
    Henceforth (cs ++ [.appendBlock slot function ref]) b.id
      fun names => names.labels.get? (blockLabel f.name r.index) = some r.symbol := by
  have hb' : (after (cs ++ [.appendBlock slot function ref])).workspace.builders.get? slot =
      some b' := by
    rw [after_concat, workspace_step]
    simp [Command.step, Workspace.appendBlock, hb, hf, hmade, Except.mapError]
  have hid := (Builder.Step.appendBlock hmade).later.id
  rw [← hid]
  refine henceforth_of_later hb' fun c hlater => NameTable.get?_eq_some_iff.mpr ?_
  apply hlater.labels
  rcases Builder.appendBlock_cases hmade with ⟨⟨e, he⟩, -⟩ | ⟨labels, -, hinsert, hresult, rfl⟩
  · cases he
  · cases hresult
    show (f.nextLabel, b.symbols.nextId) ∈ labels.entries
    rw [NameTable.entries_insert hinsert]
    exact List.mem_cons_self

end Requests

/-- **Names and arena agree.** In every session, both tables of a builder are one-to-one, no symbol
is in both of them, and the arena has every symbol under the name that a table has for it; the same
holds of the complete image. A function that was created is found by its name ever after. A block
that was appended has its label ever after, and is found by it unless there is a function of that
very name. No two blocks have the same label, whatever points and digits the names hold. -/
theorem names_after (cs : List Command) (slot : String) (b : Builder)
    (hb : (after cs).workspace.builders.get? slot = some b) :
    b.names.Describe b.symbols ∧
      (∀ image, b.finish = .ok image → image.names.Describe image.symbols) ∧
      (∀ name into f b', b.newFunction name = (.ok f, b') →
        Henceforth (cs ++ [.newFunction slot name into]) b.id
          fun names => names.lookup? name = some f.symbol) ∧
      (∀ function ref f f' r b', (after cs).workspace.functions.get? function = some f →
        b.appendBlock f = (.ok (r, f'), b') →
        Henceforth (cs ++ [.appendBlock slot function ref]) b.id fun names =>
          names.labels.get? (blockLabel f.name r.index) = some r.symbol ∧
          names.lookup? (blockLabel f.name r.index) =
            (names.functions.get? (blockLabel f.name r.index)).or (some r.symbol)) ∧
      ∀ name name' i j, blockLabel name i = blockLabel name' j → name = name' ∧ i = j := by
  have hdescribe := ((registered_after cs).names slot b hb).describe
  refine ⟨hdescribe, ?_, ?_, ?_, fun _ _ _ _ h => blockLabel_inj h⟩
  · intro image himage
    obtain ⟨-, rfl⟩ := (holds_after cs hb).finish_eq_ok himage
    exact hdescribe
  · intro name into f b' hmade cs' slot' c hc hid
    obtain ⟨hname, himage⟩ := henceforth_newFunction into hb hmade cs' slot' c hc hid
    exact ⟨Names.lookup?_of_function hname,
      fun image h => Names.lookup?_of_function (himage image h)⟩
  · intro function ref f f' r b' hf hmade cs' slot' c hc hid
    obtain ⟨hlabel, himage⟩ := henceforth_appendBlock ref hb hf hmade cs' slot' c hc hid
    exact ⟨⟨hlabel, Names.lookup?_of_label hlabel⟩,
      fun image h => ⟨himage image h, Names.lookup?_of_label (himage image h)⟩⟩

/-- The second function is named like the first block of the first one, which has a copy. -/
def namedLikeBlock : List Command :=
  [ .newBuilder "b" initialCapacity,
    .newFunction "b" "main" "main",
    .newFunction "b" "main.0" "twin",
    .copyFunction "main" "copy" ]

/-- The block gets the label all the same, and keeps it while others ask for theirs: a copy that is
refused, and the function of that name. By the name one finds the function. -/
theorem names_namedLikeBlock : ∃ b main r b' c,
    (after namedLikeBlock).workspace.builders.get? "b" = some b ∧
    (after namedLikeBlock).workspace.functions.get? "main" = some main ∧
    b.appendBlock main = (.ok (r, main.pushBlock r.symbol), b') ∧
    (after (namedLikeBlock ++ [.appendBlock "b" "main" "entry"] ++
      [.appendBlock "b" "copy" "late", .appendBlock "b" "twin" "inner"])).workspace.builders.get?
      "b" = some c ∧
    b.names.Describe b.symbols ∧
    c.names.labels.get? (blockLabel "main" 0) = some r.symbol ∧
    c.lookup? (blockLabel "main" 0) = some ⟨1⟩ := by
  have hsession : ((after namedLikeBlock).workspace.builders.get? "b").bind (fun b =>
      ((after namedLikeBlock).workspace.functions.get? "main").bind fun main =>
        (b.appendBlock main).1.toOption.map fun made =>
          (b.id, main.name, made.1.index, decide (made.2 = main.pushBlock made.1.symbol))) =
      some (⟨0⟩, "main", 0, true) := by
    decide +kernel
  have hlater : ((after (namedLikeBlock ++ [.appendBlock "b" "main" "entry"] ++
      [.appendBlock "b" "copy" "late", .appendBlock "b" "twin" "inner"])).workspace.builders.get?
      "b").map (fun c => (c.id, c.names.functions.get? "main.0")) = some (⟨0⟩, some ⟨1⟩) := by
    decide +kernel
  obtain ⟨b, hb, hsession⟩ := Option.bind_eq_some_iff.mp hsession
  obtain ⟨main, hmain, hsession⟩ := Option.bind_eq_some_iff.mp hsession
  obtain ⟨⟨r, f'⟩, hmade, hsession⟩ := Option.map_eq_some_iff.mp hsession
  obtain ⟨c, hc, hlater⟩ := Option.map_eq_some_iff.mp hlater
  simp only [Prod.mk.injEq, decide_eq_true_eq] at hsession hlater
  obtain ⟨hid, hname, hindex, rfl⟩ := hsession
  obtain ⟨hcid, hfunction⟩ := hlater
  have happend : b.appendBlock main = (.ok (r, main.pushBlock r.symbol), (b.appendBlock main).2) :=
    Prod.ext (toOption_eq_some.mp hmade) rfl
  obtain ⟨hdescribe, -, -, hblock, -⟩ := names_after namedLikeBlock "b" b hb
  obtain ⟨⟨hlabel, hlookup⟩, -⟩ := hblock "main" "entry" main _ r _ hmain happend _ "b" c hc
    (hcid.trans hid.symm)
  rw [hname, hindex] at hlabel hlookup
  refine ⟨b, main, r, _, c, hb, hmain, happend, hc, hdescribe, hlabel, hlookup.trans ?_⟩
  show (c.names.functions.get? "main.0").or (some r.symbol) = some ⟨1⟩
  rw [hfunction]
  rfl

end Session

end ImageLinker
