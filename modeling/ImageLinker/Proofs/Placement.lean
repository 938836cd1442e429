import ImageLinker.Builder.Link
import ImageLinker.Proofs.Written

/-!
# Placing a function in the image

Linking a function is three passes: its symbols get their addresses, its blocks are patched and
appended, and what waited in the image is served. Here the first two get their specifications.

* `Symbols.Grows`: symbols keep their names, and what has an address keeps it. Every change of an
  arena is of this kind (`grows_push`, `grows_resolve`).
* `Symbols.Tile`: symbols whose places follow each other without a gap.
* `Symbols.Placing`: what the first pass does; the addresses are those of `placedFrom`.
* `Builder.foldlM_layoutAppend`: what the second pass does to an image.

The third pass is `patch` once more, which `patch_codeAt` speaks of.
-/

namespace ImageLinker

theorem bind_eq_ok {ε α β : Type} {x : Except ε α} {k : α → Except ε β} {r : β}
    (h : x >>= k = .ok r) : ∃ a, x = .ok a ∧ k a = .ok r := by
  cases x with
  | error e => cases h
  | ok a => exact ⟨a, rfl, h⟩

/-! ## Arenas that grow -/

namespace Symbols

/-- Every symbol keeps its name, and from the moment it has an address it does not change at all. -/
def Grows (s t : Symbols) : Prop :=
  ∀ id symbol, s.get? id = some symbol →
    ∃ symbol', t.get? id = some symbol' ∧ symbol'.name = symbol.name ∧
      (symbol.isResolved → symbol' = symbol)

theorem Grows.refl (s : Symbols) : s.Grows s :=
  fun _ symbol h => ⟨symbol, h, rfl, fun _ => rfl⟩

theorem Grows.trans {s t u : Symbols} (h : s.Grows t) (h' : t.Grows u) : s.Grows u := by
  intro id symbol hs
  obtain ⟨symbol₁, ht, hname₁, hkeep₁⟩ := h id symbol hs
  obtain ⟨symbol₂, hu, hname₂, hkeep₂⟩ := h' id symbol₁ ht
  refine ⟨symbol₂, hu, by rw [hname₂, hname₁], ?_⟩
  intro hresolved
  have h₁ := hkeep₁ hresolved
  rw [hkeep₂ (by rwa [h₁]), h₁]

theorem Grows.extends {s t : Symbols} (h : s.Grows t) : s.Extends t := by
  intro id a ha
  obtain ⟨symbol, hs, haddress⟩ := Option.bind_eq_some_iff.mp ha
  obtain ⟨symbol', ht, -, hkeep⟩ := h id symbol hs
  have hsame := hkeep (by simp [Symbol.isResolved, haddress])
  simp [addressOf?, ht, hsame, haddress]

/-- A symbol that has an address stays what it is. -/
theorem Grows.get?_eq {s t : Symbols} (h : s.Grows t) {id : SymbolId} {symbol : Symbol} {a : Nat}
    (hs : s.get? id = some symbol) (ha : symbol.address = some a) : t.get? id = some symbol := by
  obtain ⟨symbol', ht, -, hkeep⟩ := h id symbol hs
  rw [ht, hkeep (by simp [Symbol.isResolved, ha])]

theorem Grows.isSome {s t : Symbols} (h : s.Grows t) {id : SymbolId} (hs : (s.get? id).isSome) :
    (t.get? id).isSome := by
  obtain ⟨symbol, hsymbol⟩ := Option.isSome_iff_exists.mp hs
  obtain ⟨symbol', ht, -⟩ := h id symbol hsymbol
  simp [ht]

theorem grows_push (s : Symbols) (name : String) : s.Grows (s.push name) := by
  intro id symbol hs
  have hid : id ≠ s.nextId := by
    rintro rfl
    rw [get?_eq_none_iff.mpr (by simp [nextId])] at hs
    cases hs
  exact ⟨symbol, by rw [get?_push, if_neg hid, hs], rfl, fun _ => rfl⟩

@[simp] theorem addressOf?_push (s : Symbols) (name : String) (id : SymbolId) :
    (s.push name).addressOf? id = s.addressOf? id := by
  unfold addressOf?
  rw [get?_push]
  split
  · rename_i hid
    rw [hid, get?_eq_none_iff.mpr (by simp [nextId])]
    rfl
  · rfl

theorem set_eq_ok {s t : Symbols} {id : SymbolId} {symbol : Symbol}
    (h : s.set id symbol = .ok t) (j : SymbolId) :
    t.get? j = if j = id then some symbol else s.get? j := by
  unfold set at h
  split at h
  · rename_i hlt
    cases h
    have hsize : id.index < s.entries.size := hlt
    have hid : id.index = j.index ↔ j = id := by
      cases j
      cases id
      simp [eq_comm]
    simp only [get?, Array.getElem?_setIfInBounds, hid, if_pos hsize]
  · cases h

/-- Resolving asks for a symbol of the arena that has no address, and changes that symbol only. -/
theorem resolve_eq_ok {s t : Symbols} {id : SymbolId} {address size : Nat}
    (h : s.resolve id address size = .ok t) :
    ∃ symbol, s.get? id = some symbol ∧ symbol.address = none ∧
      ∀ j, t.get? j =
        if j = id then some { symbol with address := some address, size } else s.get? j := by
  unfold resolve at h
  obtain ⟨symbol, hget, h⟩ := bind_eq_ok h
  have hs := get_eq_ok_iff.mp hget
  cases haddress : symbol.address with
  | some a => simp [Symbol.isResolved, haddress, throw, throwThe, MonadExceptOf.throw, bind,
      Except.bind] at h
  | none =>
    simp only [Symbol.isResolved, haddress, Option.isSome_none, Bool.false_eq_true, if_false] at h
    exact ⟨symbol, hs, haddress, set_eq_ok h⟩

section Resolve

variable {s t : Symbols} {id : SymbolId} {address size : Nat}

theorem grows_resolve (h : s.resolve id address size = .ok t) : s.Grows t := by
  obtain ⟨symbol, hs, haddress, ht⟩ := resolve_eq_ok h
  intro j other hj
  by_cases hid : j = id
  · subst hid
    rw [hs, Option.some.injEq] at hj
    subst hj
    refine ⟨{ symbol with address := some address, size }, by rw [ht, if_pos rfl], rfl, ?_⟩
    intro hresolved
    simp [Symbol.isResolved, haddress] at hresolved
  · exact ⟨other, by rw [ht, if_neg hid, hj], rfl, fun _ => rfl⟩

theorem get?_resolve (h : s.resolve id address size = .ok t) :
    ∃ symbol, t.get? id = some symbol ∧ symbol.address = some address ∧ symbol.size = size := by
  obtain ⟨symbol, -, -, ht⟩ := resolve_eq_ok h
  exact ⟨_, by rw [ht, if_pos rfl], rfl, rfl⟩

theorem addressOf?_resolve (h : s.resolve id address size = .ok t) :
    t.addressOf? id = some address := by
  obtain ⟨symbol, ht, haddress, -⟩ := get?_resolve h
  simp [addressOf?, ht, haddress]

theorem get?_resolve_of_ne (h : s.resolve id address size = .ok t) {j : SymbolId} (hj : j ≠ id) :
    t.get? j = s.get? j := by
  obtain ⟨symbol, -, -, ht⟩ := resolve_eq_ok h
  rw [ht, if_neg hj]

end Resolve

/-! ## The first pass -/

/-- Places that follow each other from `start` to `stop` without a gap: each symbol stands where the
one before it ends. -/
def Tile (s : Symbols) (start stop : Nat) : List SymbolId → Prop
  | [] => start = stop
  | id :: ids => ∃ symbol, s.get? id = some symbol ∧ symbol.address = some start ∧
      s.Tile (start + symbol.size) stop ids

theorem Tile.of_grows {s t : Symbols} (hgrows : s.Grows t) {start stop : Nat} {ids : List SymbolId}
    (h : s.Tile start stop ids) : t.Tile start stop ids := by
  induction ids generalizing start with
  | nil => exact h
  | cons id ids ih =>
    obtain ⟨symbol, hs, haddress, hrest⟩ := h
    exact ⟨symbol, hgrows.get?_eq hs haddress, haddress, ih hrest⟩

theorem Tile.append {s : Symbols} {start middle stop : Nat} {ids ids' : List SymbolId}
    (h : s.Tile start middle ids) (h' : s.Tile middle stop ids') :
    s.Tile start stop (ids ++ ids') := by
  induction ids generalizing start with
  | nil =>
    have hstart : start = middle := h
    rw [hstart]
    exact h'
  | cons id ids ih =>
    obtain ⟨symbol, hs, haddress, hrest⟩ := h
    exact ⟨symbol, hs, haddress, ih hrest⟩

/-- What it means that blocks were placed from `cursor` on, that the arena became `t`, and that the
last block ends at `stop`. -/
structure Placing (s : Symbols) (cursor : Nat) (blocks : List Block) (t : Symbols) (stop : Nat) :
    Prop where
  stop_eq : stop = cursor + (blocks.map Block.size).sum
  /-- The sums that are formed on the way are addresses. -/
  stop_lt : cursor < addressLimit → stop < addressLimit
  grows : s.Grows t
  /-- Symbols that are not of these blocks stay as they are. -/
  others : ∀ id, (∀ block ∈ blocks, block.symbol ≠ id) → t.get? id = s.get? id
  /-- Each block has its address. -/
  placed : ∀ p ∈ placedFrom cursor blocks, t.addressOf? p.2.symbol = some p.1
  tile : t.Tile cursor stop (blocks.map Block.symbol)
  sized : ∀ block ∈ blocks, (t.get? block.symbol).map Symbol.size = some block.size

theorem addAddress_eq_ok {a b c : Nat} (h : addAddress a b = .ok c) :
    c = a + b ∧ c < addressLimit := by
  unfold addAddress at h
  split at h
  · rename_i hlt
    cases h
    exact ⟨rfl, hlt⟩
  · cases h

theorem place_eq_ok {s t : Symbols} {cursor stop : Nat} {blocks : List Block}
    (h : s.place cursor blocks = .ok (t, stop)) : Placing s cursor blocks t stop := by
  induction blocks generalizing s cursor with
  | nil =>
    cases h
    exact ⟨rfl, id, Grows.refl _, fun _ _ => rfl, by simp [placedFrom], rfl, by simp⟩
  | cons block rest ih =>
    unfold place at h
    obtain ⟨s₁, hresolve, h⟩ := bind_eq_ok h
    obtain ⟨next, hnext, h⟩ := bind_eq_ok h
    obtain ⟨hsum, hlt⟩ := addAddress_eq_ok hnext
    have hrest := ih h
    -- What the first block got is kept while the others are placed, since the arena only grows.
    obtain ⟨symbol, hsymbol, haddress, hsize⟩ := get?_resolve hresolve
    have hkept := hrest.grows.get?_eq hsymbol haddress
    constructor
    case stop_eq =>
      rw [hrest.stop_eq, hsum, List.map_cons, List.sum_cons]
      omega
    case stop_lt => exact fun _ => hrest.stop_lt hlt
    case grows => exact (grows_resolve hresolve).trans hrest.grows
    case others =>
      intro id hid
      rw [hrest.others id fun b hb => hid b (List.mem_cons_of_mem _ hb),
        get?_resolve_of_ne hresolve (hid block List.mem_cons_self).symm]
    case placed =>
      intro p hp
      rw [placedFrom, ← hsum] at hp
      rcases List.mem_cons.mp hp with rfl | hp
      · exact hrest.grows.extends _ _ (addressOf?_resolve hresolve)
      · exact hrest.placed p hp
    case tile =>
      have htile := hrest.tile
      rw [hsum, ← hsize] at htile
      exact ⟨symbol, hkept, haddress, htile⟩
    case sized =>
      intro b hb
      rcases List.mem_cons.mp hb with rfl | hb
      · rw [hkept, Option.map_some, hsize]
      · exact hrest.sized b hb

theorem Placing.addressOf?_cases {s t : Symbols} {cursor stop : Nat} {blocks : List Block}
    (h : Placing s cursor blocks t stop) {id : SymbolId} {a : Nat} (ha : t.addressOf? id = some a) :
    s.addressOf? id = some a ∨ ∃ p ∈ placedFrom cursor blocks, p.1 = a := by
  by_cases hid : ∀ block ∈ blocks, block.symbol ≠ id
  · -- A symbol that is not of these blocks has the address that it had before.
    left
    rwa [addressOf?, ← h.others id hid]
  · right
    obtain ⟨block, hblock, rfl⟩ : ∃ block ∈ blocks, block.symbol = id := by simpa using hid
    obtain ⟨start, hp⟩ := exists_mem_placedFrom cursor hblock
    have hstart := h.placed _ hp
    rw [ha, Option.some.injEq] at hstart
    exact ⟨_, hp, hstart.symm⟩

end Symbols

/-! ## The second pass -/

theorem Fixup.relocated_of_lt {f : Fixup} {base : Nat} (h : f.offset + base < addressLimit) :
    f.relocated base = .ok { f with offset := f.offset + base } := by
  rw [relocated, addAddress, if_pos h]
  rfl

theorem mapM_relocated {base : Nat} {fixups : List Fixup}
    (h : ∀ f ∈ fixups, f.offset + base < addressLimit) :
    fixups.mapM (fun f => f.relocated base) =
      .ok (fixups.map fun f => { f with offset := f.offset + base }) := by
  induction fixups with
  | nil => rfl
  | cons f fixups ih =>
    have hhere := Fixup.relocated_of_lt (h f List.mem_cons_self)
    have hrest := ih fun g hg => h g (List.mem_cons_of_mem _ hg)
    simp [List.mapM_cons, hhere, hrest, bind, Except.bind, pure, Except.pure]

/-- A block whose code is linked. -/
def Block.linked (symbols : Symbols) (b : Block) : Block :=
  { b with code := (b.linkedCode symbols).toArray }

namespace Builder

/-- A block joins the image with the code of its instructions, and those of its references that
wait do so at image addresses. -/
theorem layoutAppend_eq (symbols : Symbols) (l : Layout) {block : Block} {is : List Instruction}
    (h : block.Holds is) (hknown : ∀ f ∈ block.fixups, (symbols.get? f.symbol).isSome)
    (hfits : l.code.size + codeSize is < addressLimit) :
    l.append symbols block = .ok {
      code := l.code ++ (codeAt symbols.valueOf is).toArray
      pending := l.pending ++ (fixupsFrom l.code.size is).filter symbols.isWaiting
      blocks := l.blocks.push (block.linked symbols) } := by
  have hpatch := h.patch_eq symbols hknown
  have hmoved : ((fixupsFrom 0 is).filter symbols.isWaiting).mapM
      (fun f => f.relocated l.code.size) =
        .ok ((fixupsFrom l.code.size is).filter symbols.isWaiting) := by
    have hall := fixupsFrom_add l.code.size 0 is
    rw [Nat.zero_add] at hall
    rw [mapM_relocated, hall, List.filter_map]
    · rfl
    · intro f hf
      have hbounds := fixupsFrom_bounds (List.mem_of_mem_filter hf)
      unfold addressSize at hbounds
      omega
  simp only [Layout.append, hpatch, hmoved, bind, Except.bind, pure, Except.pure, Block.linked,
    h.linkedCode_eq]

/-- The blocks of a function join the image one behind the other. Induction on the blocks, with the
image that is there already as the accumulator. -/
theorem foldlM_layoutAppend (symbols : Symbols) {blocks : List Block}
    {text : List (List Instruction)} (h : List.Forall₂ Block.Holds blocks text) (l : Layout)
    (hknown : ∀ block ∈ blocks, ∀ f ∈ block.fixups, (symbols.get? f.symbol).isSome)
    (hfits : l.code.size + codeSize text.flatten < addressLimit) :
    blocks.foldlM (Layout.append symbols) l = .ok {
      code := l.code ++ (codeAt symbols.valueOf text.flatten).toArray
      pending := l.pending ++ (fixupsFrom l.code.size text.flatten).filter symbols.isWaiting
      blocks := l.blocks ++ (blocks.map (Block.linked symbols)).toArray } := by
  induction h generalizing l with
  | nil => simp [fixupsFrom, pure, Except.pure]
  | @cons block is blocks text hb _ ih =>
    rw [List.flatten_cons, codeSize_append] at hfits
    have hfirst := layoutAppend_eq symbols l hb (hknown block List.mem_cons_self) (by omega)
    have hrest := ih {
      code := l.code ++ (codeAt symbols.valueOf is).toArray
      pending := l.pending ++ (fixupsFrom l.code.size is).filter symbols.isWaiting
      blocks := l.blocks.push (block.linked symbols) }
      (fun b hb => hknown b (List.mem_cons_of_mem _ hb))
      (by simp; omega)
    rw [List.foldlM_cons, hfirst]
    change List.foldlM _ _ _ = _
    rw [hrest]
    simp [fixupsFrom_append]

end Builder

end ImageLinker
