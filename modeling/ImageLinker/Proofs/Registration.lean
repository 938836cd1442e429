import ImageLinker.Proofs.History
import Mathlib.Data.List.Nodup

/-!
# Functions and the names they are registered under

A builder registers the name of every function and the label of every block, together with the
symbol, and it forgets nothing. A copy of a function carries the same symbols, so it is registered
just as the function is. Since both tables are one-to-one and a label tells the name and the number
of its block apart, two functions that share the symbol of a block are one function or copies of it.

* `blockLabel_inj`: labels are told apart, whatever points and digits the names hold.
* `Builder.Step`, `Builder.Later`: what one command can do to a builder, and what it keeps.
* `Builder.NamesSound`: the tables speak of the arena.
* `Function.KnownTo`: a function that is registered, with all of its blocks.
* `Session.registered_after`: in every session, all functions are known to their builders.
* `Session.later_append`: a builder keeps what it has, whatever commands follow.
-/

namespace ImageLinker

/-! ## Labels -/

/-- The label of a block: the name of its function, a point and its number. -/
def blockLabel (name : String) (index : Nat) : String :=
  s!"{name}.{index}"

theorem Function.nextLabel_eq (f : Function) : f.nextLabel = blockLabel f.name f.blocks.size := rfl

theorem toList_blockLabel (name : String) (index : Nat) :
    (blockLabel name index).toList = name.toList ++ '.' :: Nat.toDigits 10 index := by
  show (name ++ "." ++ Nat.repr index).toList = _
  rw [String.toList_append, String.toList_append, Nat.toList_repr, List.append_assoc]
  rfl

theorem point_notMem_toDigits (n : Nat) : '.' ∉ Nat.toDigits 10 n := by
  intro hmem
  have hdigit := Nat.isDigit_of_mem_toDigits (by decide) (by decide) hmem
  exact absurd hdigit (by decide)

theorem append_cons_inj {α : Type} {a : α} {xs ys us vs : List α} (hx : a ∉ xs) (hy : a ∉ ys)
    (h : xs ++ a :: us = ys ++ a :: vs) : xs = ys ∧ us = vs := by
  rcases List.append_eq_append_iff.mp h with ⟨as, rfl, hrest⟩ | ⟨as, rfl, hrest⟩
  · cases as with
    | nil => simpa using hrest
    | cons c as =>
      rw [List.cons_append, List.cons.injEq] at hrest
      exact absurd (by simp [hrest.1]) hy
  · cases as with
    | nil => simpa [eq_comm] using hrest
    | cons c as =>
      rw [List.cons_append, List.cons.injEq] at hrest
      exact absurd (by simp [hrest.1]) hx

/-- The last point of a label stands before the number, so the two parts are found again. -/
theorem blockLabel_inj {name name' : String} {i j : Nat}
    (h : blockLabel name i = blockLabel name' j) : name = name' ∧ i = j := by
  have hlists := congrArg (fun s => s.toList.reverse) h
  simp only [toList_blockLabel, List.reverse_append, List.reverse_cons, List.append_assoc,
    List.singleton_append] at hlists
  have hdigits : ∀ n, '.' ∉ (Nat.toDigits 10 n).reverse := fun n =>
    fun hmem => point_notMem_toDigits n (List.mem_reverse.mp hmem)
  obtain ⟨hi, hname⟩ := append_cons_inj (hdigits i) (hdigits j) hlists
  constructor
  · exact String.toList_inj.mp (List.reverse_injective hname)
  · have hdigits : Nat.toDigits 10 i = Nat.toDigits 10 j := List.reverse_injective hi
    rw [← Nat.ofDigitChars_ten_toDigits (n := i), hdigits, Nat.ofDigitChars_ten_toDigits]

/-! ## Name tables -/

namespace NameTable

variable {t t' : NameTable} {name name' : String} {id id' : SymbolId}

theorem id_eq (h : (name, id) ∈ t.entries) (h' : (name, id') ∈ t.entries) : id = id' :=
  congrArg Prod.snd (List.inj_on_of_nodup_map t.names_nodup h h' rfl)

theorem name_eq (h : (name, id) ∈ t.entries) (h' : (name', id) ∈ t.entries) : name = name' :=
  congrArg Prod.fst (List.inj_on_of_nodup_map t.ids_nodup h h' rfl)

theorem entries_insert (h : t.insert name id = .ok t') : t'.entries = (name, id) :: t.entries := by
  unfold insert at h
  split at h
  · cases h
  · cases h
    rfl

/-- Every entry of the table is the name of a symbol in the arena. -/
def NamesIn (t : NameTable) (s : Symbols) : Prop :=
  ∀ name id, (name, id) ∈ t.entries → (s.get? id).map Symbol.name = some name

variable {s u : Symbols}

theorem NamesIn.of_grows (h : t.NamesIn s) (hgrows : s.Grows u) : t.NamesIn u := by
  intro name id hentry
  obtain ⟨symbol, hsymbol, hname⟩ := Option.map_eq_some_iff.mp (h name id hentry)
  obtain ⟨symbol', hsymbol', hname', -⟩ := hgrows id symbol hsymbol
  rw [hsymbol', Option.map_some, hname', hname]

theorem NamesIn.isSome (h : t.NamesIn s) (hentry : (name, id) ∈ t.entries) :
    (s.get? id).isSome := by
  rw [← Option.isSome_map, h name id hentry]
  rfl

theorem NamesIn.ne_nextId (h : t.NamesIn s) (hentry : (name, id) ∈ t.entries) : id ≠ s.nextId := by
  rintro rfl
  have hsome := h.isSome hentry
  rw [Symbols.get?_eq_none_iff.mpr (by simp [Symbols.nextId])] at hsome
  cases hsome

theorem NamesIn.insert (h : t.NamesIn s) (hinsert : t.insert name s.nextId = .ok t') :
    t'.NamesIn (s.push name) := by
  intro other id hentry
  rw [entries_insert hinsert] at hentry
  rcases List.mem_cons.mp hentry with hnew | hold
  · cases hnew
    rw [Symbols.get?_push, if_pos rfl]
    rfl
  · exact h.of_grows (Symbols.grows_push s name) other id hold

end NameTable

/-! ## Builders -/

namespace Builder

/-- What one command can do to a builder. -/
inductive Step (b : Builder) : Builder → Prop where
  | newFunction {name : String} {result : Except BuildError Function} {b' : Builder}
    (h : b.newFunction name = (result, b')) : Step b b'
  | appendBlock {f : Function} {result : Except Failure (BlockRef × Function)} {b' : Builder}
    (h : b.appendBlock f = (result, b')) : Step b b'
  | link {f f' : Function} {b' : Builder} (h : b.link f = .ok (b', f')) : Step b b'
  | globals (globals : Array Global) : Step b { b with globals }

/-- A later state of a builder: names and symbols are added, and no more than that. -/
structure Later (b b' : Builder) : Prop where
  id : b'.id = b.id
  grows : b.symbols.Grows b'.symbols
  functions : b.names.functions.entries ⊆ b'.names.functions.entries
  labels : b.names.labels.entries ⊆ b'.names.labels.entries

variable {b b' : Builder}

theorem Later.refl (b : Builder) : b.Later b :=
  ⟨rfl, Symbols.Grows.refl _, List.Subset.refl _, List.Subset.refl _⟩

theorem Later.trans {b'' : Builder} (h : b.Later b') (h' : b'.Later b'') : b.Later b'' :=
  ⟨h'.id.trans h.id, h.grows.trans h'.grows, List.Subset.trans h.functions h'.functions,
    List.Subset.trans h.labels h'.labels⟩

theorem link_symbols_names {f f' : Function} (h : b.link f = .ok (b', f')) :
    b.symbols.Grows b'.symbols ∧ b'.names = b.names ∧ b'.id = b.id := by
  obtain ⟨symbols, stop, layout, hblocks, hresolve, -, -, hb', -⟩ := link_passes h
  refine ⟨?_, by rw [hb'], by rw [hb']⟩
  exact (Symbols.place_eq_ok hblocks).grows.trans (Symbols.grows_resolve hresolve)

theorem Step.later (h : b.Step b') : b.Later b' := by
  cases h with
  | newFunction h =>
    have hsame := sameImage_newFunction h
    rcases newFunction_cases h with ⟨-, rfl | rfl⟩ | ⟨functions, hinsert, -, rfl⟩
    · exact .refl _
    · exact ⟨hsame.id, hsame.grows, List.Subset.refl _, List.Subset.refl _⟩
    · refine ⟨hsame.id, hsame.grows, ?_, List.Subset.refl _⟩
      rw [NameTable.entries_insert hinsert]
      exact List.subset_cons_self _ _
  | appendBlock h =>
    have hsame := sameImage_appendBlock h
    rcases appendBlock_cases h with ⟨-, rfl | rfl⟩ | ⟨labels, -, hinsert, -, rfl⟩
    · exact .refl _
    · exact ⟨hsame.id, hsame.grows, List.Subset.refl _, List.Subset.refl _⟩
    · refine ⟨hsame.id, hsame.grows, List.Subset.refl _, ?_⟩
      rw [NameTable.entries_insert hinsert]
      exact List.subset_cons_self _ _
  | link h =>
    obtain ⟨hgrows, hnames, hid⟩ := link_symbols_names h
    refine ⟨hid, hgrows, ?_, ?_⟩ <;> rw [hnames] <;> exact List.Subset.refl _
  | globals globals => exact ⟨rfl, Symbols.Grows.refl _, List.Subset.refl _, List.Subset.refl _⟩

/-- The names that a builder has given out are those of its symbols, and no symbol is both that of a
function and that of a block. -/
structure NamesSound (b : Builder) : Prop where
  functions : b.names.functions.NamesIn b.symbols
  labels : b.names.labels.NamesIn b.symbols
  disjoint : ∀ name label id, (name, id) ∈ b.names.functions.entries →
    (label, id) ∉ b.names.labels.entries

namespace NamesSound

theorem empty (id : BuilderId) : NamesSound { id } where
  functions := by intro name id hentry; cases hentry
  labels := by intro name id hentry; cases hentry
  disjoint := by intro name label id hentry; cases hentry

theorem of_names (h : b.NamesSound) (hgrows : b.symbols.Grows b'.symbols)
    (hnames : b'.names = b.names) : b'.NamesSound where
  functions := by rw [hnames]; exact h.functions.of_grows hgrows
  labels := by rw [hnames]; exact h.labels.of_grows hgrows
  disjoint := by rw [hnames]; exact h.disjoint

/-- The symbol of a new function or block is in neither table before. -/
theorem step (h : b.NamesSound) (hstep : b.Step b') : b'.NamesSound := by
  cases hstep with
  | newFunction hmade =>
    have hgrows := (sameImage_newFunction hmade).grows
    rcases newFunction_cases hmade with ⟨-, rfl | rfl⟩ | ⟨functions, hinsert, -, rfl⟩
    · exact h
    · exact h.of_names hgrows rfl
    · refine ⟨h.functions.insert hinsert, h.labels.of_grows hgrows, ?_⟩
      intro other label id hentry hlabel
      rw [NameTable.entries_insert hinsert] at hentry
      rcases List.mem_cons.mp hentry with hnew | hold
      · cases hnew
        exact h.labels.ne_nextId hlabel rfl
      · exact h.disjoint other label id hold hlabel
  | appendBlock hmade =>
    have hgrows := (sameImage_appendBlock hmade).grows
    rcases appendBlock_cases hmade with ⟨-, rfl | rfl⟩ | ⟨labels, -, hinsert, -, rfl⟩
    · exact h
    · exact h.of_names hgrows rfl
    · refine ⟨h.functions.of_grows hgrows, h.labels.insert hinsert, ?_⟩
      intro name label id hentry hlabel
      rw [NameTable.entries_insert hinsert] at hlabel
      rcases List.mem_cons.mp hlabel with hnew | hold
      · cases hnew
        exact h.functions.ne_nextId hentry rfl
      · exact h.disjoint name label id hentry hold
  | link hlink =>
    obtain ⟨hgrows, hnames, -⟩ := link_symbols_names hlink
    exact h.of_names hgrows hnames
  | globals globals => exact ⟨h.functions, h.labels, h.disjoint⟩

end NamesSound

end Builder

/-! ## Functions -/

namespace Function

/-- Two values of one function, which may differ in the code of their blocks. -/
structure SameSymbols (f g : Function) : Prop where
  name : f.name = g.name
  symbol : f.symbol = g.symbol
  builder : f.builder = g.builder
  blocks : f.blocks.toList.map Block.symbol = g.blocks.toList.map Block.symbol

theorem SameSymbols.refl (f : Function) : f.SameSymbols f := ⟨rfl, rfl, rfl, rfl⟩

/-- A builder has the name of the function and the labels of its blocks in its tables, with their
symbols. -/
structure KnownTo (f : Function) (b : Builder) : Prop where
  name : (f.name, f.symbol) ∈ b.names.functions.entries
  labels : ∀ k id, (f.blocks.toList.map Block.symbol)[k]? = some id →
    (blockLabel f.name k, id) ∈ b.names.labels.entries

namespace KnownTo

variable {f g : Function} {b b' : Builder}

theorem of_sameSymbols (h : g.KnownTo b) (hsame : f.SameSymbols g) : f.KnownTo b where
  name := by rw [hsame.name, hsame.symbol]; exact h.name
  labels := by rw [hsame.name, hsame.blocks]; exact h.labels

theorem of_later (h : f.KnownTo b) (hlater : b.Later b') : f.KnownTo b' where
  name := hlater.functions h.name
  labels := fun k id hid => hlater.labels (h.labels k id hid)

theorem newFunction {name : String} (h : b.newFunction name = (.ok f, b')) : f.KnownTo b' := by
  rcases Builder.newFunction_cases h with ⟨⟨e, he⟩, -⟩ | ⟨functions, hinsert, hresult, rfl⟩
  · cases he
  · cases hresult
    constructor
    · show _ ∈ functions.entries
      rw [NameTable.entries_insert hinsert]
      exact List.mem_cons_self
    · intro k id hid
      cases hid

theorem appendBlock {r : BlockRef} (hf : f.KnownTo b)
    (h : b.appendBlock f = (.ok (r, g), b')) : g.KnownTo b' := by
  rcases Builder.appendBlock_cases h with ⟨⟨e, he⟩, -⟩ | ⟨labels, -, hinsert, hresult, rfl⟩
  · cases he
  · cases hresult
    refine ⟨hf.name, ?_⟩
    intro k id hid
    show _ ∈ labels.entries
    rw [NameTable.entries_insert hinsert, Function.nextLabel_eq]
    -- The new block is the last one, and its label is the next one.
    simp only [pushBlock, Array.toList_push, List.map_append, List.map_cons, List.map_nil] at hid
    rcases Nat.lt_trichotomy k f.blocks.size with hlt | heq | hgt
    · rw [List.getElem?_append_left (by simpa using hlt)] at hid
      exact List.mem_cons_of_mem _ (hf.labels k id hid)
    · rw [heq, List.getElem?_append_right (by simp)] at hid
      simp only [List.length_map, Array.length_toList, Nat.sub_self, List.getElem?_cons_zero,
        Option.some.injEq] at hid
      rw [heq, hid]
      exact List.mem_cons_self
    · rw [List.getElem?_eq_none (by simp; omega)] at hid
      cases hid

/-- **Blocks belong to one function.** Two functions that share the symbol of a block have the same
symbol, and the block is at the same place in both. -/
theorem symbol_eq (hf : f.KnownTo b) (hg : g.KnownTo b) {i j : Nat} {id : SymbolId}
    (hi : (f.blocks.toList.map Block.symbol)[i]? = some id)
    (hj : (g.blocks.toList.map Block.symbol)[j]? = some id) : f.symbol = g.symbol ∧ i = j := by
  have hlabels := NameTable.name_eq (hf.labels i id hi) (hg.labels j id hj)
  obtain ⟨hname, hindex⟩ := blockLabel_inj hlabels
  have hsymbol := hg.name
  rw [← hname] at hsymbol
  exact ⟨NameTable.id_eq hf.name hsymbol, hindex⟩

theorem blocks_nodup (h : f.KnownTo b) : (f.blocks.toList.map Block.symbol).Nodup := by
  rw [List.nodup_iff_getElem?_ne_getElem?]
  intro i j hij hj heq
  obtain ⟨id, hid⟩ : ∃ id, (f.blocks.toList.map Block.symbol)[j]? = some id :=
    ⟨_, List.getElem?_eq_getElem hj⟩
  have hindex := (h.symbol_eq h (heq.trans hid) hid).2
  omega

end KnownTo

end Function

/-! ## Sessions -/

namespace Session

variable {s s' : Session}

/-- A function that is in a slot, or a value that a function had when it was linked. -/
def HasFunction (s : Session) (f : Function) : Prop :=
  (∃ slot, s.workspace.functions.get? slot = some f) ∨ ∃ l ∈ s.linked, l.value = f

theorem hasFunction_of_set {slot : String} {f g : Function} (hf : s'.HasFunction f)
    (hfunctions : s'.workspace.functions = s.workspace.functions.set slot g)
    (hlinked : ∀ l ∈ s'.linked, l ∈ s.linked ∨ s.HasFunction l.value) :
    f = g ∨ s.HasFunction f := by
  rcases hf with ⟨other, hother⟩ | ⟨l, hl, rfl⟩
  · rw [hfunctions, Slots.get?_set] at hother
    split at hother
    · exact .inl (Option.some.inj hother).symm
    · exact .inr (.inl ⟨other, hother⟩)
  · rcases hlinked l hl with hold | hnew
    · exact .inr (.inr ⟨l, hold, rfl⟩)
    · exact .inr hnew

/-- How a command changes a builder: it is a new one, or a step away from what its slot held. -/
theorem Change.builder_cases (h : Change s s') {slot : String} {b' : Builder}
    (hb' : s'.workspace.builders.get? slot = some b') :
    b' = { id := ⟨s.workspace.builderCount⟩ } ∨
      ∃ b, s.workspace.builders.get? slot = some b ∧ (b' = b ∨ b.Step b') := by
  have hset : ∀ {builder : String} {b b₁ : Builder},
      s.workspace.builders.get? builder = some b → b.Step b₁ →
      (s.workspace.builders.set builder b₁).get? slot = some b' →
      ∃ b, s.workspace.builders.get? slot = some b ∧ (b' = b ∨ b.Step b') := by
    intro builder b b₁ hb hstep hget
    rw [Slots.get?_set] at hget
    split at hget
    · rename_i hslot
      cases hget
      exact ⟨b, by rw [hslot, hb], .inr hstep⟩
    · exact ⟨b', hget, .inl rfl⟩
  cases h with
  | aside => exact .inr ⟨b', hb', .inl rfl⟩
  | builderMade made =>
    rw [Slots.get?_set] at hb'
    split at hb'
    · exact .inl (Option.some.inj hb').symm
    · exact .inr ⟨b', hb', .inl rfl⟩
  | functionMade made hb h => exact .inr (hset hb (.newFunction h) hb')
  | functionRefused hb h => exact .inr (hset hb (.newFunction h) hb')
  | functionCopied => exact .inr ⟨b', hb', .inl rfl⟩
  | blockMade made hb hf h => exact .inr (hset hb (.appendBlock h) hb')
  | blockRefused hb hf h => exact .inr (hset hb (.appendBlock h) hb')
  | written => exact .inr ⟨b', hb', .inl rfl⟩
  | linked journal hb hf h => exact .inr (hset hb (.link h) hb')
  | globalsChanged globals journal hb => exact .inr (hset hb (.globals globals) hb')
  | finished builder images journal =>
    rw [Slots.get?_erase] at hb'
    split at hb'
    · cases hb'
    · exact .inr ⟨b', hb', .inl rfl⟩

theorem Change.builderCount_le (h : Change s s') :
    s.workspace.builderCount ≤ s'.workspace.builderCount := by
  cases h <;> simp

/-- Where a function of a session comes from. -/
inductive FunctionOrigin (s s' : Session) (f : Function) : Prop where
  | kept {g : Function} (hg : s.HasFunction g) (hsame : f.SameSymbols g)
  | made {builder name : String} {b b' : Builder}
    (hb : s.workspace.builders.get? builder = some b)
    (hb' : s'.workspace.builders.get? builder = some b') (h : b.newFunction name = (.ok f, b'))
  | extended {builder : String} {b b' : Builder} {g : Function} {r : BlockRef}
    (hb : s.workspace.builders.get? builder = some b)
    (hb' : s'.workspace.builders.get? builder = some b') (hg : s.HasFunction g)
    (h : b.appendBlock g = (.ok (r, f), b'))

/-- Writing and linking change the code of blocks, but no symbol. -/
theorem Change.function_origin (hfunctions : s.FunctionsSound)
    (hbuilders : s.BuildersSound Builder.Holds) (h : Change s s') {f : Function}
    (hf : s'.HasFunction f) : FunctionOrigin s s' f := by
  have hkept : s.HasFunction f → FunctionOrigin s s' f := fun hold => .kept hold (.refl f)
  cases h with
  | aside => exact hkept hf
  | builderMade => exact hkept hf
  | functionMade slot hb h =>
    rcases hasFunction_of_set (s := s) hf rfl (fun l hl => .inl hl) with rfl | hold
    · exact .made hb (Slots.get?_set_self _ _ _) h
    · exact hkept hold
  | functionRefused => exact hkept hf
  | @functionCopied function g slot hg =>
    rcases hasFunction_of_set (s := s) hf rfl (fun l hl => .inl hl) with rfl | hold
    · exact hkept (.inl ⟨function, hg⟩)
    · exact hkept hold
  | @blockMade builder function b b' g g' r slot hb hg h =>
    rcases hasFunction_of_set (s := s) hf rfl (fun l hl => .inl hl) with rfl | hold
    · exact .extended hb (Slots.get?_set_self _ _ _) (.inl ⟨function, hg⟩) h
    · exact hkept hold
  | blockRefused => exact hkept hf
  | @written function ref g r block is journal hg hr hblock hchecked =>
    rcases hasFunction_of_set (s := s) hf rfl (fun l hl => .inl hl) with rfl | hold
    · refine .kept (.inl ⟨function, hg⟩) ⟨rfl, rfl, rfl, ?_⟩
      have hsymbol : (g.blocks.toList.map Block.symbol)[r.index]? = some block.symbol := by
        rw [List.getElem?_map, (writableBlock_eq_ok hblock).2, Option.map_some]
      obtain ⟨hlt, hat⟩ := List.getElem?_eq_some_iff.mp hsymbol
      simp only [Function.setBlock, Array.toList_setIfInBounds, List.map_set,
        Block.symbol_foldl_append]
      rw [← hat, List.set_getElem_self]
    · exact hkept hold
  | @linked builder function b b' g g' journal hb hg h =>
    have hlinked : ∀ l ∈ s.linked ++ [⟨g, s.textOf function⟩],
        l ∈ s.linked ∨ s.HasFunction l.value := by
      intro l hl
      rcases List.mem_append.mp hl with hl | hl
      · exact .inl hl
      · rw [List.mem_singleton.mp hl]
        exact .inr (.inl ⟨function, hg⟩)
    rcases hasFunction_of_set (s := s) hf rfl hlinked with rfl | hold
    · obtain ⟨-, hopen, -, -⟩ := Builder.link_eq_ok h
      obtain ⟨-, -, -, -, -, rfl⟩ := (hbuilders.holds builder b hb).link_eq
        (hfunctions function g hg hopen) h
      refine .kept (.inl ⟨function, hg⟩) ⟨rfl, rfl, rfl, ?_⟩
      simp [Block.linked, Function.comp_def]
    · exact hkept hold
  | globalsChanged => exact hkept hf
  | finished => exact hkept hf

/-- Every function is known to its builder, as long as the builder is there. -/
structure Registered (s : Session) : Prop where
  number_lt : ∀ f, s.HasFunction f → f.builder.number < s.workspace.builderCount
  names : ∀ slot b, s.workspace.builders.get? slot = some b → b.NamesSound
  known : ∀ slot b f, s.workspace.builders.get? slot = some b → s.HasFunction f →
    f.builder = b.id → f.KnownTo b

namespace Registered

theorem change (h : s.Registered) (hfunctions : s.FunctionsSound)
    (hbuilders : s.BuildersSound Builder.Holds) (hbuilders' : s'.BuildersSound Builder.Holds)
    (hchange : Change s s') : s'.Registered := by
  constructor
  case number_lt =>
    intro f hf
    have hcount := hchange.builderCount_le
    cases hchange.function_origin hfunctions hbuilders hf with
    | kept hg hsame =>
      have hlt := h.number_lt _ hg
      rw [hsame.builder]
      omega
    | made hb hb' hmade =>
      have hlt := hbuilders.number_lt _ _ hb
      rw [Builder.newFunction_eq_ok hmade]
      exact Nat.lt_of_lt_of_le hlt hcount
    | extended hb hb' hg hmade =>
      have hlt := h.number_lt _ hg
      rw [(Builder.appendBlock_eq_ok hmade).2]
      exact Nat.lt_of_lt_of_le hlt hcount
  case names =>
    intro slot b' hb'
    rcases hchange.builder_cases hb' with rfl | ⟨b, hb, rfl | hstep⟩
    · exact .empty _
    · exact h.names slot b' hb
    · exact (h.names slot b hb).step hstep
  case known =>
    intro slot b' f hb' hf hid
    cases hchange.function_origin hfunctions hbuilders hf with
    | @kept g hg hsame =>
      refine Function.KnownTo.of_sameSymbols ?_ hsame
      rw [hsame.builder] at hid
      rcases hchange.builder_cases hb' with rfl | ⟨b, hb, rfl | hstep⟩
      · -- No function is older than its builder.
        have hlt := h.number_lt g hg
        rw [hid] at hlt
        exact absurd hlt (Nat.lt_irrefl _)
      · exact h.known slot b' g hb hg hid
      · have hlater := hstep.later
        rw [hlater.id] at hid
        exact (h.known slot b g hb hg hid).of_later hlater
    | @made builder name b₀ b₀' hb₀ hb₀' hmade =>
      have hid₀ : f.builder = b₀'.id := by
        rw [Builder.newFunction_eq_ok hmade, (Builder.Step.newFunction hmade).later.id]
      have hslot := hbuilders'.slot_eq builder slot b₀' b' hb₀' hb' (hid₀.symm.trans hid)
      subst hslot
      rw [hb₀', Option.some.injEq] at hb'
      subst hb'
      exact .newFunction hmade
    | @extended builder b₀ b₀' g r hb₀ hb₀' hg hmade =>
      obtain ⟨hcheck, hpush⟩ := Builder.appendBlock_eq_ok hmade
      have hidg := (Builder.checkUnlinked_eq_ok hcheck).1
      have hid₀ : f.builder = b₀'.id := by
        rw [hpush, (Builder.Step.appendBlock hmade).later.id]
        exact hidg
      have hslot := hbuilders'.slot_eq builder slot b₀' b' hb₀' hb' (hid₀.symm.trans hid)
      subst hslot
      rw [hb₀', Option.some.injEq] at hb'
      subst hb'
      exact (h.known builder b₀ g hb₀ hg hidg).appendBlock hmade

end Registered

/-- **Functions are registered.** After any commands, all names that a builder has given out are
those of its symbols, and it knows every function that is its own, copies and earlier values
included. -/
theorem registered_after (cs : List Command) : (after cs).Registered := by
  have hall : (after cs).FunctionsSound ∧ (after cs).BuildersSound Builder.Holds ∧
      (after cs).Registered := by
    refine after_induction (P := fun s => s.FunctionsSound ∧ s.BuildersSound Builder.Holds ∧
      s.Registered) ⟨functionsSound_after [], .empty, ?_⟩ (fun s s' h hchange => ?_) cs
    · constructor
      · rintro f (⟨slot, hf⟩ | ⟨l, hl, -⟩)
        · cases hf
        · cases hl
      · intro slot b hb
        cases hb
      · intro slot b f hb
        cases hb
    · have hbuilders' := h.2.1.change holds_invariant h.1 hchange
      exact ⟨h.1.change hchange, hbuilders', h.2.2.change h.1 h.2.1 hbuilders' hchange⟩
  exact hall.2.2

/-! ## Sessions that go on -/

/-- Every builder of `s'` was made since, or is a later state of what was in its slot. -/
structure Evolves (s s' : Session) : Prop where
  builderCount_le : s.workspace.builderCount ≤ s'.workspace.builderCount
  later : ∀ slot b', s'.workspace.builders.get? slot = some b' →
    s.workspace.builderCount ≤ b'.id.number ∨
      ∃ b, s.workspace.builders.get? slot = some b ∧ b.Later b'

theorem Evolves.refl (s : Session) : s.Evolves s :=
  ⟨Nat.le_refl _, fun _ b' hb' => .inr ⟨b', hb', .refl b'⟩⟩

theorem Evolves.trans {s'' : Session} (h : s.Evolves s') (h' : s'.Evolves s'') : s.Evolves s'' := by
  have hcount := h.builderCount_le
  refine ⟨Nat.le_trans hcount h'.builderCount_le, ?_⟩
  intro slot b'' hb''
  rcases h'.later slot b'' hb'' with hnew | ⟨b', hb', hlater'⟩
  · exact .inl (Nat.le_trans hcount hnew)
  · rcases h.later slot b' hb' with hnew | ⟨b, hb, hlater⟩
    · rw [← hlater'.id] at hnew
      exact .inl hnew
    · exact .inr ⟨b, hb, hlater.trans hlater'⟩

theorem Change.evolves (h : Change s s') : s.Evolves s' := by
  refine ⟨h.builderCount_le, ?_⟩
  intro slot b' hb'
  rcases h.builder_cases hb' with rfl | ⟨b, hb, rfl | hstep⟩
  · exact .inl (Nat.le_refl _)
  · exact .inr ⟨b', hb, .refl b'⟩
  · exact .inr ⟨b, hb, hstep.later⟩

theorem evolves_append (cs cs' : List Command) : (after cs).Evolves (after (cs ++ cs')) := by
  have hrun : ∀ s : Session, s.Evolves (cs'.foldl step s) := by
    induction cs' with
    | nil => exact Evolves.refl
    | cons c cs' ih => exact fun s => (step_change s c).evolves.trans (ih _)
  rw [after, after, List.foldl_append]
  exact hrun _

/-- A builder that is still there is a later state of itself: numbers are given out once, and no two
slots hold the same builder. -/
theorem Evolves.later_of_id {P : Builder → List LinkedFunction → Prop} (h : s.Evolves s')
    (hsound : s.BuildersSound P) {slot slot' : String} {b b' : Builder}
    (hb : s.workspace.builders.get? slot = some b)
    (hb' : s'.workspace.builders.get? slot' = some b') (hid : b'.id = b.id) : b.Later b' := by
  rcases h.later slot' b' hb' with hnew | ⟨b₀, hb₀, hlater⟩
  · have hlt := hsound.number_lt slot b hb
    rw [hid] at hnew
    omega
  · have hslot := hsound.slot_eq slot' slot b₀ b hb₀ hb (hlater.id.symm.trans hid)
    rw [hslot, hb, Option.some.injEq] at hb₀
    rw [hb₀]
    exact hlater

/-- **Builders only add.** Whatever commands follow, a builder keeps its names and symbols, and what
has an address keeps it. -/
theorem later_append (cs cs' : List Command) {slot slot' : String} {b b' : Builder}
    (hb : (after cs).workspace.builders.get? slot = some b)
    (hb' : (after (cs ++ cs')).workspace.builders.get? slot' = some b') (hid : b'.id = b.id) :
    b.Later b' :=
  (evolves_append cs cs').later_of_id (buildersSound_after holds_invariant cs) hb hb' hid

end Session

end ImageLinker
