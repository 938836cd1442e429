import ImageLinker.Proofs.NamedSymbols
import Mathlib.Data.List.Sort

/-!
# What starts at an address

A function starts where its first block does, and empty blocks and functions start where the next
one does, so that many names can belong to one address. An image lists them in the order in which
the symbols were created. Links may come in any other order, and a block may be older than a
function that starts at the same address, so functions need not come first.

* `Function.labels`, `labelsOf`: the labels of what was linked, one for each function and block.
* `Label.Registered`: a label that the tables and the arena agree with; it is the only one for its
  symbol.
* `Session.created_after`: a function is older than its blocks, and these are in order.
* `Image.ShowsAt`: what is listed at an address, and in which order.
* `Session.labelsAt_after`: every complete image shows this, and when functions come first.
-/

namespace ImageLinker

/-! ## Labels -/

/-- The name of a function or of a block, with its symbol. -/
structure Label where
  symbol : SymbolId
  name : String
  isFunction : Bool
deriving DecidableEq, Repr

/-- The symbol of `x` was created before that of `y`. -/
def Label.Before (x y : Label) : Prop :=
  x.symbol.index < y.symbol.index

instance : Std.Antisymm Label.Before where
  antisymm _ _ h h' := absurd h' (Nat.lt_asymm h)

theorem Label.Before.ne {x y : Label} (h : x.Before y) : x ≠ y := by
  rintro rfl
  exact Nat.lt_irrefl _ h

/-- No function comes behind a block. -/
def FunctionsFirst (labels : List Label) : Prop :=
  labels.Pairwise fun x y => y.isFunction → x.isFunction

/-- Labels in order of creation have the functions first only if all functions are older than all
blocks. -/
theorem functionsFirst_iff_of_ordered {labels : List Label} (h : labels.Pairwise Label.Before) :
    FunctionsFirst labels ↔
      ∀ f ∈ labels, ∀ block ∈ labels, f.isFunction → ¬block.isFunction → f.Before block := by
  constructor
  · intro hfirst f hf block hblock hisFunction hisBlock
    obtain ⟨i, hi, rfl⟩ := List.mem_iff_getElem.mp hf
    obtain ⟨j, hj, rfl⟩ := List.mem_iff_getElem.mp hblock
    rcases Nat.lt_trichotomy i j with hlt | rfl | hgt
    · exact List.pairwise_iff_getElem.mp h i j hi hj hlt
    · exact absurd hisFunction hisBlock
    · exact absurd (List.pairwise_iff_getElem.mp hfirst j i hj hi hgt hisFunction) hisBlock
  · intro hbefore
    refine h.imp_of_mem fun {x y} hx hy hxy hisFunction => ?_
    by_contra hisBlock
    exact Nat.lt_asymm hxy (hbefore y hy x hx hisFunction hisBlock)

/-! ## Labels of functions -/

/-- The label of a function and those of its blocks, in order. -/
def Function.labels (f : Function) : List Label :=
  ⟨f.symbol, f.name, true⟩ :: (f.blocks.toList.map Block.symbol).mapIdx fun k id =>
    ⟨id, blockLabel f.name k, false⟩

/-- The labels of linked functions and of their blocks. -/
def labelsOf (ls : List LinkedFunction) : List Label :=
  ls.flatMap fun l => l.value.labels

namespace Function

variable {f g : Function} {x : Label}

theorem mem_labels : x ∈ f.labels ↔ x = ⟨f.symbol, f.name, true⟩ ∨
    ∃ k : Nat, (f.blocks.toList.map Block.symbol)[k]? = some x.symbol ∧
      x = ⟨x.symbol, blockLabel f.name k, false⟩ := by
  rw [labels, List.mem_cons]
  refine or_congr_right ?_
  rw [List.mem_iff_getElem?]
  simp only [List.getElem?_mapIdx, Option.map_eq_some_iff]
  constructor
  · rintro ⟨k, id, hid, rfl⟩
    exact ⟨k, hid, rfl⟩
  · rintro ⟨k, hid, heq⟩
    exact ⟨k, x.symbol, hid, heq.symm⟩

theorem exists_mem_labels_iff {id : SymbolId} : (∃ x ∈ f.labels, x.symbol = id) ↔
    f.symbol = id ∨ ∃ block ∈ f.blocks, block.symbol = id := by
  rw [Builder.mem_blocks_iff]
  constructor
  · rintro ⟨x, hx, rfl⟩
    rcases mem_labels.mp hx with rfl | ⟨k, hk, -⟩
    · exact .inl rfl
    · exact .inr ⟨k, hk⟩
  · rintro (rfl | ⟨k, hk⟩)
    · exact ⟨_, mem_labels.mpr (.inl rfl), rfl⟩
    · exact ⟨⟨id, blockLabel f.name k, false⟩, mem_labels.mpr (.inr ⟨k, hk, rfl⟩), rfl⟩

theorem SameSymbols.labels_eq (h : f.SameSymbols g) : f.labels = g.labels := by
  rw [labels, labels, h.symbol, h.name, h.blocks]

theorem labels_pushBlock (f : Function) (id : SymbolId) :
    (f.pushBlock id).labels = f.labels ++ [⟨id, f.nextLabel, false⟩] := by
  simp [labels, pushBlock, List.mapIdx_append, nextLabel_eq]

end Function

/-! ## Labels and tables -/

/-- The arena has the symbol of the label under this name, and the symbol is in the table of
functions if the label is that of a function, and not otherwise. -/
structure Label.Registered (x : Label) (names : Names) (symbols : Symbols) : Prop where
  name : (symbols.get? x.symbol).map Symbol.name = some x.name
  kind : (names.functions.name? x.symbol).isSome = x.isFunction

theorem Label.Registered.eq_of_symbol {x y : Label} {names : Names} {symbols : Symbols}
    (hx : x.Registered names symbols) (hy : y.Registered names symbols)
    (h : x.symbol = y.symbol) : x = y := by
  have hname := hx.name
  have hkind := hx.kind
  rw [h, hy.name, Option.some.injEq] at hname
  rw [h, hy.kind] at hkind
  cases x
  cases y
  simp_all

theorem Function.KnownTo.registered {f : Function} {b : Builder} (h : f.KnownTo b)
    (hnames : b.NamesSound) {x : Label} (hx : x ∈ f.labels) : x.Registered b.names b.symbols := by
  rcases mem_labels.mp hx with rfl | ⟨k, hk, heq⟩
  · refine ⟨hnames.functions _ _ h.name, ?_⟩
    show (b.names.functions.name? f.symbol).isSome = true
    rw [NameTable.name?_eq_some_iff.mpr h.name]
    rfl
  · have hentry := h.labels k x.symbol hk
    rw [heq]
    refine ⟨hnames.labels _ _ hentry, ?_⟩
    -- Functions and blocks share no symbol.
    show (b.names.functions.name? x.symbol).isSome = false
    rw [Option.isSome_eq_false_iff, Option.isNone_iff_eq_none, Option.eq_none_iff_forall_ne_some]
    intro name hname
    exact hnames.disjoint name _ _ (NameTable.name?_eq_some_iff.mp hname) hentry

theorem Function.KnownTo.symbol_lt {f : Function} {b : Builder} (h : f.KnownTo b)
    (hnames : b.NamesSound) {x : Label} (hx : x ∈ f.labels) :
    x.symbol.index < b.symbols.size := by
  rw [← Symbols.isSome_get?_iff, ← Option.isSome_map, (h.registered hnames hx).name]
  rfl

/-! ## The order of creation -/

namespace Session

variable {s s' : Session}

/-- Every function was created before its blocks, and these one after the other. -/
def Created (s : Session) : Prop :=
  ∀ f, s.HasFunction f → f.labels.Pairwise Label.Before

/-- A new symbol is behind all that are in the arena, and there are those of the function. -/
theorem Created.change (h : s.Created) (hregistered : s.Registered)
    (hfunctions : s.FunctionsSound) (hbuilders : s.BuildersSound Builder.Holds)
    (hchange : Change s s') : s'.Created := by
  intro f hf
  cases hchange.function_origin hfunctions hbuilders hf with
  | kept hg hsame =>
    rw [hsame.labels_eq]
    exact h _ hg
  | made hb hb' hmade =>
    rw [Builder.newFunction_eq_ok hmade]
    exact List.pairwise_singleton _ _
  | @extended builder b b' g r hb hb' hg hmade =>
    obtain ⟨hcheck, rfl⟩ := Builder.appendBlock_eq_ok hmade
    have hid := (Builder.checkUnlinked_eq_ok hcheck).1
    have hknown := hregistered.known builder b g hb hg hid
    rw [Function.labels_pushBlock, List.pairwise_append]
    refine ⟨h g hg, List.pairwise_singleton _ _, ?_⟩
    intro x hx y hy
    rw [List.mem_singleton.mp hy]
    exact hknown.symbol_lt (hregistered.names builder b hb) hx

theorem created_after (cs : List Command) : (after cs).Created := by
  induction cs using List.reverseRecOn with
  | nil =>
    rintro f (⟨slot, hf⟩ | ⟨l, hl, -⟩)
    · cases hf
    · cases hl
  | append_singleton cs c ih =>
    rw [after_concat]
    exact ih.change (registered_after cs) (functionsSound_after cs)
      (buildersSound_after holds_invariant cs) (step_change _ c)

end Session

/-! ## Labels of an image -/

theorem Symbols.pairwise_toList (s : Symbols) :
    s.toList.Pairwise fun p q => p.1.index < q.1.index := by
  have hindices : (s.entries.toList.zipIdx.map Prod.snd).Pairwise (· < ·) := by
    rw [List.zipIdx_map_snd]
    exact List.pairwise_lt_range'
  exact List.pairwise_map.mpr (List.pairwise_map.mp hindices)

namespace Image

variable {image : Image} {a : Nat}

/-- `labelsAt`, with what the image knows about each of the names. -/
def entriesAt (image : Image) (a : Nat) : List Label :=
  image.symbols.toList.filterMap fun p =>
    if p.2.address = some a then
      some ⟨p.1, p.2.name, (image.names.functions.name? p.1).isSome⟩
    else none

theorem labelsAt_eq (image : Image) (a : Nat) :
    image.labelsAt a = (image.entriesAt a).map Label.name := by
  unfold labelsAt entriesAt
  rw [List.map_filterMap]
  refine congrFun (congrArg List.filterMap (funext fun p => ?_)) _
  show (if p.2.address = some a then some p.2.name else none) = _
  split <;> rfl

theorem mem_entriesAt {x : Label} : x ∈ image.entriesAt a ↔
    x.Registered image.names image.symbols ∧ image.symbols.addressOf? x.symbol = some a := by
  unfold entriesAt
  rw [List.mem_filterMap]
  constructor
  · rintro ⟨⟨id, symbol⟩, hmem, hentry⟩
    have hsymbol := Symbols.mem_toList_iff.mp hmem
    split at hentry
    · rename_i haddress
      cases hentry
      exact ⟨⟨by rw [hsymbol]; rfl, rfl⟩, by rw [Symbols.addressOf?, hsymbol]; exact haddress⟩
    · cases hentry
  · rintro ⟨hregistered, haddress⟩
    obtain ⟨symbol, hsymbol, haddress⟩ := Option.bind_eq_some_iff.mp haddress
    have hname := hregistered.name
    rw [hsymbol, Option.map_some, Option.some.injEq] at hname
    refine ⟨(x.symbol, symbol), Symbols.mem_toList_iff.mpr hsymbol, ?_⟩
    show (if symbol.address = some a then _ else none) = some x
    rw [if_pos haddress, hname, hregistered.kind]

theorem pairwise_entriesAt (image : Image) (a : Nat) :
    (image.entriesAt a).Pairwise Label.Before := by
  refine List.Pairwise.filterMap _ ?_ image.symbols.pairwise_toList
  rintro ⟨id, symbol⟩ ⟨id', symbol'⟩ hlt x hx y hy
  split at hx <;> cases hx
  split at hy <;> cases hy
  exact hlt

/-- What an image shows at an address, given what was linked into it. -/
structure ShowsAt (image : Image) (ls : List LinkedFunction) (a : Nat) (entries : List Label) :
    Prop where
  names : image.labelsAt a = entries.map Label.name
  /-- There is one entry for each function and each block that was linked to this address, and no
  other entry. -/
  perm : entries.Perm ((labelsOf ls).filter fun x => image.symbols.addressOf? x.symbol = some a)
  /-- The entries are in order of creation. -/
  ordered : entries.Pairwise Label.Before
  /-- A function is shown in front of its blocks, and these are in their order. -/
  within : ∀ l ∈ ls,
    (l.value.labels.filter fun x => image.symbols.addressOf? x.symbol = some a).Sublist entries

namespace ShowsAt

variable {ls : List LinkedFunction} {entries : List Label}

theorem mem_iff (h : image.ShowsAt ls a entries) {x : Label} : x ∈ entries ↔
    (∃ l ∈ ls, x ∈ l.value.labels) ∧ image.symbols.addressOf? x.symbol = some a := by
  rw [h.perm.mem_iff, List.mem_filter, decide_eq_true_eq, labelsOf, List.mem_flatMap]

/-- Functions come first only if those that start here are older than the blocks that do. -/
theorem functionsFirst_iff (h : image.ShowsAt ls a entries) :
    FunctionsFirst entries ↔ ∀ l ∈ ls, ∀ l' ∈ ls, ∀ block ∈ l'.value.blocks,
      image.symbols.addressOf? l.value.symbol = some a →
      image.symbols.addressOf? block.symbol = some a →
      l.value.symbol.index < block.symbol.index := by
  rw [functionsFirst_iff_of_ordered h.ordered]
  constructor
  · intro hbefore l hl l' hl' block hblock ha ha'
    obtain ⟨k, hk⟩ := Builder.mem_blocks_iff.mp ⟨block, hblock, rfl⟩
    have hf : ⟨l.value.symbol, l.value.name, true⟩ ∈ entries :=
      h.mem_iff.mpr ⟨⟨l, hl, Function.mem_labels.mpr (.inl rfl)⟩, ha⟩
    have hb : ⟨block.symbol, blockLabel l'.value.name k, false⟩ ∈ entries :=
      h.mem_iff.mpr ⟨⟨l', hl', Function.mem_labels.mpr (.inr ⟨k, hk, rfl⟩)⟩, ha'⟩
    exact hbefore _ hf _ hb rfl Bool.noConfusion
  · intro holder f hf block hblock hisFunction hisBlock
    obtain ⟨⟨l, hl, hf⟩, ha⟩ := h.mem_iff.mp hf
    obtain ⟨⟨l', hl', hblock⟩, ha'⟩ := h.mem_iff.mp hblock
    rcases Function.mem_labels.mp hf with rfl | ⟨k, -, heq⟩
    · rcases Function.mem_labels.mp hblock with rfl | ⟨k, hk, -⟩
      · exact absurd rfl hisBlock
      · obtain ⟨found, hfound, hsymbol⟩ := Builder.mem_blocks_iff.mpr ⟨k, hk⟩
        rw [← hsymbol] at ha'
        show l.value.symbol.index < block.symbol.index
        rw [← hsymbol]
        exact holder l hl l' hl' found hfound ha ha'
    · rw [heq] at hisFunction
      cases hisFunction

end ShowsAt

end Image

namespace Builder

variable {b : Builder} {ls : List LinkedFunction}

/-- All that was linked has labels of its own: functions and blocks share no symbol. -/
theorem Placed.labelsOf_nodup (h : b.Placed ls) (hknown : ∀ l ∈ ls, l.value.KnownTo b)
    (hcreated : ∀ l ∈ ls, l.value.labels.Pairwise Label.Before) : (labelsOf ls).Nodup := by
  refine List.nodup_flatMap.mpr ⟨fun l hl => (hcreated l hl).imp Label.Before.ne, ?_⟩
  refine (List.pairwise_map.mp h.nodup).imp_of_mem fun {l l'} hl hl' hne x hx hx' => hne ?_
  rcases Function.mem_labels.mp hx with hf | ⟨k, hk, hblock⟩ <;>
    rcases Function.mem_labels.mp hx' with hf' | ⟨k', hk', hblock'⟩
  · rw [hf] at hf'
    exact congrArg Label.symbol hf'
  · exact absurd (congrArg Label.isFunction (hf.symm.trans hblock')) Bool.noConfusion
  · exact absurd (congrArg Label.isFunction (hblock.symm.trans hf')) Bool.noConfusion
  · exact ((hknown l hl).symbol_eq (hknown l' hl') hk hk').1

theorem Placed.mem_entriesAt (h : b.Placed ls) (hnames : b.NamesSound)
    (hknown : ∀ l ∈ ls, l.value.KnownTo b) {image : Image} (hsymbols : image.symbols = b.symbols)
    (hsame : image.names = b.names) {a : Nat} {x : Label} :
    x ∈ image.entriesAt a ↔
      x ∈ labelsOf ls ∧ image.symbols.addressOf? x.symbol = some a := by
  rw [Image.mem_entriesAt, hsymbols, hsame]
  refine and_congr_left fun haddress => ?_
  constructor
  · intro hx
    -- What has an address was linked, and a symbol has one label only.
    obtain ⟨l, hl, hid⟩ := (h.resolved x.symbol).mp (Option.isSome_of_mem haddress)
    obtain ⟨y, hy, hsymbol⟩ := Function.exists_mem_labels_iff.mpr hid
    have hlabel := ((hknown l hl).registered hnames hy).eq_of_symbol hx hsymbol
    exact List.mem_flatMap.mpr ⟨l, hl, hlabel ▸ hy⟩
  · intro hx
    obtain ⟨l, hl, hx⟩ := List.mem_flatMap.mp hx
    exact (hknown l hl).registered hnames hx

theorem Placed.showsAt (h : b.Placed ls) (hnames : b.NamesSound)
    (hknown : ∀ l ∈ ls, l.value.KnownTo b)
    (hcreated : ∀ l ∈ ls, l.value.labels.Pairwise Label.Before) {image : Image}
    (hsymbols : image.symbols = b.symbols) (hsame : image.names = b.names) (a : Nat) :
    image.ShowsAt ls a (image.entriesAt a) := by
  have hordered := image.pairwise_entriesAt a
  have hmem : ∀ x, x ∈ image.entriesAt a ↔
      x ∈ labelsOf ls ∧ image.symbols.addressOf? x.symbol = some a :=
    fun x => h.mem_entriesAt hnames hknown hsymbols hsame
  constructor
  case names => exact image.labelsAt_eq a
  case perm =>
    refine (List.perm_ext_iff_of_nodup (hordered.imp Label.Before.ne)
      ((h.labelsOf_nodup hknown hcreated).filter _)).mpr fun x => ?_
    rw [hmem, List.mem_filter, decide_eq_true_eq]
  case ordered => exact hordered
  case within =>
    intro l hl
    have hown := (hcreated l hl).filter fun x => image.symbols.addressOf? x.symbol = some a
    refine List.sublist_of_subperm_of_pairwise ?_ hown hordered
    refine List.subperm_of_subset (hown.imp Label.Before.ne) fun x hx => ?_
    obtain ⟨hx, haddress⟩ := List.mem_filter.mp hx
    exact (hmem x).mpr ⟨List.mem_flatMap.mpr ⟨l, hl, hx⟩, of_decide_eq_true haddress⟩

end Builder

namespace Session

/-- **The names at an address.** In every session, a complete image shows at an address the name of
each function and each block that was linked there, once and with nothing else, in the order in
which they were created; so a function comes before its own blocks, and these are in their order.
Functions come before all blocks if and only if every function that starts at the address is older
than every block that does, which may be a block of another function. -/
theorem labelsAt_after (cs : List Command) (slot : String) (b : Builder) (image : Image) (a : Nat)
    (hb : (after cs).workspace.builders.get? slot = some b) (himage : b.finish = .ok image) :
    ∃ entries, image.ShowsAt ((after cs).linkedInto b.id) a entries ∧
      (FunctionsFirst entries ↔
        ∀ l ∈ (after cs).linkedInto b.id, ∀ l' ∈ (after cs).linkedInto b.id,
          ∀ block ∈ l'.value.blocks, image.symbols.addressOf? l.value.symbol = some a →
            image.symbols.addressOf? block.symbol = some a →
            l.value.symbol.index < block.symbol.index) := by
  obtain ⟨-, heq⟩ := (holds_after cs hb).finish_eq_ok himage
  have hcreated : ∀ l ∈ (after cs).linkedInto b.id, l.value.labels.Pairwise Label.Before :=
    fun l hl => created_after cs l.value (.inr ⟨l, List.mem_of_mem_filter hl, rfl⟩)
  have hshows : image.ShowsAt ((after cs).linkedInto b.id) a (image.entriesAt a) :=
    (placed_after cs hb).showsAt ((registered_after cs).names slot b hb)
      (fun l hl => knownTo_of_linkedInto cs hb hl) hcreated (by rw [heq]) (by rw [heq]) a
  exact ⟨image.entriesAt a, hshows, hshows.functionsFirst_iff⟩

/-- The second function and its block start behind the first function, and the function is the older
of the two. -/
theorem labelsAt_mutualJumps : ∃ b image entries,
    (after (mutualJumps ++ [.link "b" "late"])).workspace.builders.get? "b" = some b ∧
    b.finish = .ok image ∧ image.labelsAt 22 = ["helper", "helper.0"] ∧
    image.ShowsAt ((after (mutualJumps ++ [.link "b" "late"])).linkedInto b.id) 22 entries ∧
    FunctionsFirst entries := by
  have hsession : ((after (mutualJumps ++ [.link "b" "late"])).workspace.builders.get? "b").bind
      (fun b => b.finish.toOption.map fun image : Image => (image.labelsAt 22, decide (
        ∀ l ∈ (after (mutualJumps ++ [Command.link "b" "late"])).linkedInto b.id,
        ∀ l' ∈ (after (mutualJumps ++ [Command.link "b" "late"])).linkedInto b.id,
          ∀ block ∈ l'.value.blocks, image.symbols.addressOf? l.value.symbol = some 22 →
            image.symbols.addressOf? block.symbol = some 22 →
            l.value.symbol.index < block.symbol.index))) =
      some (["helper", "helper.0"], true) := by
    decide +kernel
  obtain ⟨b, hb, hsession⟩ := Option.bind_eq_some_iff.mp hsession
  obtain ⟨image, himage, hsession⟩ := Option.map_eq_some_iff.mp hsession
  rw [Prod.mk.injEq, decide_eq_true_eq] at hsession
  obtain ⟨hlabels, holder⟩ := hsession
  have hfinish := toOption_eq_some.mp himage
  obtain ⟨entries, hshows, hfirst⟩ := labelsAt_after _ "b" b image 22 hb hfinish
  exact ⟨b, image, entries, hb, hfinish, hlabels, hshows, hfirst.mpr holder⟩

/-- Two functions without code, the second of which is younger than the block of the first. -/
def emptyFunctions : List Command :=
  [ .newBuilder "b" initialCapacity,
    .newFunction "b" "f" "f",
    .appendBlock "b" "f" "entry",
    .newFunction "b" "g" "g",
    .link "b" "f",
    .link "b" "g" ]

/-- All three start at the same address, and the block is shown between the functions. So the names
are not those of the linked functions and blocks in any order that has the functions first. -/
theorem labelsAt_emptyFunctions : ∃ b image,
    (after emptyFunctions).workspace.builders.get? "b" = some b ∧ b.finish = .ok image ∧
    image.labelsAt 0 = ["f", "f.0", "g"] ∧
    ¬∃ entries, image.labelsAt 0 = entries.map Label.name ∧
      entries.Perm ((labelsOf ((after emptyFunctions).linkedInto b.id)).filter fun x =>
        image.symbols.addressOf? x.symbol = some 0) ∧ FunctionsFirst entries := by
  have hsession : ((after emptyFunctions).workspace.builders.get? "b").bind
      (fun b => b.finish.toOption.map fun image => (image.labelsAt 0,
        (labelsOf ((after emptyFunctions).linkedInto b.id)).filter fun x =>
          image.symbols.addressOf? x.symbol = some 0)) =
      some (["f", "f.0", "g"], [⟨⟨0⟩, "f", true⟩, ⟨⟨1⟩, "f.0", false⟩, ⟨⟨2⟩, "g", true⟩]) := by
    decide +kernel
  obtain ⟨b, hb, hsession⟩ := Option.bind_eq_some_iff.mp hsession
  obtain ⟨image, himage, hsession⟩ := Option.map_eq_some_iff.mp hsession
  rw [Prod.mk.injEq] at hsession
  obtain ⟨hlabels, hlinked⟩ := hsession
  refine ⟨b, image, hb, toOption_eq_some.mp himage, hlabels, ?_⟩
  rintro ⟨entries, hnames, hperm, hfirst⟩
  rw [hlinked] at hperm
  rw [hlabels] at hnames
  obtain ⟨x, y, z, rfl⟩ := List.length_eq_three.mp (hperm.length_eq.trans rfl)
  simp only [List.map_cons, List.map_nil, List.cons.injEq, and_true] at hnames
  obtain ⟨-, hy, hz⟩ := hnames
  -- The names tell which entry is which: the second is the block and the third a function.
  have hkinds : ∀ e ∈ [x, y, z], ("f.0" = e.name → e.isFunction = false) ∧
      ("g" = e.name → e.isFunction = true) := by
    simp only [hperm.mem_iff]
    decide
  have hblock := (hkinds y (by simp)).1 hy
  have hfunction := (hkinds z (by simp)).2 hz
  have hbehind := (List.pairwise_cons.mp (List.pairwise_cons.mp hfirst).2).1 z (by simp) hfunction
  rw [hblock] at hbehind
  cases hbehind

end Session

end ImageLinker
