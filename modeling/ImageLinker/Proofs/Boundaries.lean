import ImageLinker.Proofs.ListedBytes
import ImageLinker.Proofs.Tiling

/-!
# Symbols stand at instruction boundaries

Nothing in the bytes of an image says where one instruction ends and the next begins: that depends
on all bytes in front, and some of these are written long after they were appended. Yet a jump to a
symbol never lands inside an instruction. The argument is about the instructions that were written
and not about bytes: an address is a boundary if some of these instructions come before it and the
others after it (`IsBoundary`). Links only add instructions at the end, so a boundary stays one, and
a link gives out boundaries only: the end of the code so far, and the beginnings of the new blocks.

* `mem_withAddresses`: an instruction stands behind those that were written before it.
* `Builder.Aligned`: every address that was given out is a boundary; `Builder.Aligned.link` is the
  step, `Session.aligned_after` the whole run.
* `readAddress_codeAt`: what stands in the code where a symbol is named.
* `Session.symbols_at_boundaries`: the complete image, read back and listed.
-/

namespace ImageLinker

/-! ## Boundaries in a list of instructions -/

/-- The address is that of an instruction, or the end of the code. -/
def IsBoundary (is : List Instruction) (a : Nat) : Prop :=
  ∃ before after, is = before ++ after ∧ a = codeSize before

namespace IsBoundary

variable {is js : List Instruction} {a : Nat}

theorem start (is : List Instruction) : IsBoundary is 0 := ⟨[], is, rfl, rfl⟩

theorem codeSize_self (is : List Instruction) : IsBoundary is (codeSize is) :=
  ⟨is, [], by simp, rfl⟩

theorem append_right (h : IsBoundary is a) (js : List Instruction) : IsBoundary (is ++ js) a := by
  obtain ⟨before, after, rfl, rfl⟩ := h
  exact ⟨before, after ++ js, by rw [List.append_assoc], rfl⟩

theorem append_left (is : List Instruction) (h : IsBoundary js a) :
    IsBoundary (is ++ js) (codeSize is + a) := by
  obtain ⟨before, after, rfl, rfl⟩ := h
  exact ⟨is ++ before, after, by rw [List.append_assoc], by rw [codeSize_append]⟩

end IsBoundary

theorem mem_withAddresses {start a : Nat} {is : List Instruction} {i : Instruction} :
    (a, i) ∈ withAddresses start is ↔
      ∃ before after, is = before ++ i :: after ∧ a = start + codeSize before := by
  induction is generalizing start with
  | nil => simp [withAddresses]
  | cons j is ih =>
    rw [withAddresses, List.mem_cons, ih]
    constructor
    · rintro (heq | ⟨before, after, rfl, rfl⟩)
      · cases heq
        exact ⟨[], is, rfl, rfl⟩
      · exact ⟨j :: before, after, rfl, by rw [codeSize_cons]; omega⟩
    · rintro ⟨before, after, heq, rfl⟩
      -- Either `i` is the first instruction, or `j` is in front of it.
      cases before with
      | nil =>
        cases heq
        exact .inl rfl
      | cons k before =>
        cases heq
        exact .inr ⟨before, after, rfl, by rw [codeSize_cons]; omega⟩

theorem IsBoundary.cases {is : List Instruction} {a : Nat} (h : IsBoundary is a) :
    a = codeSize is ∨ ∃ i, (a, i) ∈ withAddresses 0 is := by
  obtain ⟨before, after, rfl, rfl⟩ := h
  cases after with
  | nil => exact .inl (by rw [List.append_nil])
  | cons i after => exact .inr ⟨i, mem_withAddresses.mpr ⟨before, after, rfl, by omega⟩⟩

/-- Blocks begin at boundaries, since each of them is made of whole instructions. -/
theorem isBoundary_of_mem_placedFrom {bs : List Block} {text : List (List Instruction)}
    (h : List.Forall₂ Block.Holds bs text) {start : Nat} {p : Nat × Block}
    (hp : p ∈ placedFrom start bs) : ∃ a, IsBoundary text.flatten a ∧ p.1 = start + a := by
  induction h generalizing start with
  | nil => cases hp
  | @cons b is bs text hb _ ih =>
    rcases List.mem_cons.mp hp with rfl | hp
    · exact ⟨0, .start _, rfl⟩
    · obtain ⟨a, ha, hpa⟩ := ih hp
      refine ⟨codeSize is + a, ha.append_left is, ?_⟩
      rw [hpa, hb.size_eq]
      omega

/-! ## Every address is a boundary -/

/-- All addresses that a builder has given out are boundaries of what was linked into it. -/
def Builder.Aligned (b : Builder) (ls : List LinkedFunction) : Prop :=
  ∀ id a, b.symbols.addressOf? id = some a → IsBoundary (instructionsOf ls) a

namespace Builder.Aligned

variable {b b' : Builder} {ls : List LinkedFunction} {f f' : Function}
  {text : List (List Instruction)}

theorem empty (id : BuilderId) : Aligned { id } [] := by
  intro id a ha
  cases ha

theorem of_sameImage (h : b.Aligned ls) (hsame : b.SameImage b') : b'.Aligned ls := by
  intro id a ha
  rw [hsame.address] at ha
  exact h id a ha

theorem link (h : b.Aligned ls) (hholds : b.Holds ls) (hf : f.Holds text)
    (hlink : b.link f = .ok (b', f')) : b'.Aligned (ls ++ [⟨f, text⟩]) := by
  obtain ⟨symbols, stop, hplacing, hresolve, -, -⟩ := hholds.link_eq hf hlink
  intro id a ha
  rw [instructionsOf_concat]
  by_cases hid : id = f.symbol
  · -- The function begins where the code ended before.
    rw [hid, Symbols.addressOf?_resolve hresolve, Option.some.injEq] at ha
    rw [← ha, hholds.size_code]
    exact (IsBoundary.codeSize_self _).append_right _
  · -- Any other symbol had its address before, or is one of the new blocks.
    rw [Symbols.addressOf?, Symbols.get?_resolve_of_ne hresolve hid] at ha
    rcases hplacing.addressOf?_cases ha with hold | ⟨p, hp, rfl⟩
    · exact (h id a hold).append_right _
    · obtain ⟨a, ha, hpa⟩ := isBoundary_of_mem_placedFrom hf hp
      rw [hpa, hholds.size_code]
      exact ha.append_left _

/-- Reading the code finds a boundary again: what is read stands where it was written. -/
theorem address_cases (h : b.Aligned ls) (hholds : b.Holds ls) (id : SymbolId) (a : Nat)
    (ha : b.symbols.addressOf? id = some a) :
    a = b.code.size ∨ ∃ i, (a, i) ∈ (withAddresses 0 (instructionsOf ls)).map
      fun (a, i) => (a, i.canon b.symbols.valueOf) := by
  rw [hholds.size_code]
  refine (h id a ha).cases.imp_right ?_
  rintro ⟨i, hi⟩
  exact ⟨i.canon b.symbols.valueOf, List.mem_map.mpr ⟨(a, i), hi, rfl⟩⟩

end Builder.Aligned

/-! ## What stands where a symbol is named -/

theorem readAddress_leBytes (v : Nat) (rest : List UInt8) (hv : v < addressLimit) :
    readAddress (leBytes addressSize v ++ rest) = some v := by
  have hsplit : split? addressSize (leBytes addressSize v ++ rest) =
      some (leBytes addressSize v, rest) :=
    split?_eq_some_iff.mpr ⟨length_leBytes _ _, rfl⟩
  rw [readAddress, hsplit, Option.map_some]
  show some (ofLeBytes (leBytes addressSize v)) = some v
  rw [ofLeBytes_leBytes]
  exact congrArg some (Nat.mod_eq_of_lt hv)

theorem Instruction.bytesAt_of_symbol? {i : Instruction} {id : SymbolId} (h : i.symbol? = some id)
    (address : SymbolId → Nat) :
    i.bytesAt address = i.head ++ leBytes addressSize (address id) := by
  have hfixup := fixup?_of_symbol? h 0
  rcases i.reference_cases with ⟨hnone, -⟩ | ⟨other, hsome, hbytes⟩
  · rw [hnone] at hfixup
    cases hfixup
  · rw [hsome, Option.some.injEq, Fixup.mk.injEq] at hfixup
    rw [hbytes, hfixup.1]

/-- Behind the head of an instruction that names a symbol stands the address of that symbol. -/
theorem readAddress_codeAt {address : SymbolId → Nat} {is : List Instruction} {a : Nat}
    {i : Instruction} (hi : (a, i) ∈ withAddresses 0 is) {id : SymbolId} (hid : i.symbol? = some id)
    (hlt : address id < addressLimit) :
    readAddress ((codeAt address is).drop (a + i.head.length)) = some (address id) := by
  obtain ⟨before, after, rfl, rfl⟩ := mem_withAddresses.mp hi
  have hfront : (codeAt address before ++ i.head).length = 0 + codeSize before + i.head.length := by
    rw [List.length_append, length_codeAt, Nat.zero_add]
  rw [codeAt_append, codeAt_cons, Instruction.bytesAt_of_symbol? hid, List.append_assoc,
    ← List.append_assoc, List.drop_left' hfront]
  exact readAddress_leBytes _ _ hlt

/-! ## Labels of a listing -/

theorem Symbols.mem_toList_iff {s : Symbols} {id : SymbolId} {symbol : Symbol} :
    (id, symbol) ∈ s.toList ↔ s.get? id = some symbol := by
  constructor
  · intro h
    obtain ⟨⟨found, index⟩, hmem, heq⟩ := List.mem_map.mp h
    rw [List.mem_zipIdx_iff_getElem?, Array.getElem?_toList] at hmem
    cases heq
    exact hmem
  · intro h
    refine List.mem_map.mpr ⟨(symbol, id.index), ?_, rfl⟩
    rw [List.mem_zipIdx_iff_getElem?, Array.getElem?_toList]
    exact h

theorem Image.mem_labelsAt {image : Image} {id : SymbolId} {symbol : Symbol} {a : Nat}
    (h : image.symbols.get? id = some symbol) (ha : symbol.address = some a) :
    symbol.name ∈ image.labelsAt a :=
  List.mem_filterMap.mpr ⟨(id, symbol), Symbols.mem_toList_iff.mpr h, if_pos ha⟩

/-- The symbol has an address, and if there is code at that address, then the name is among the
labels of the row there. -/
def Image.Labelled (image : Image) (rows : List ListingRow) (id : SymbolId) (name : String) :
    Prop :=
  ∃ a, image.symbols.addressOf? id = some a ∧
    (a < image.code.size → ∃ row ∈ rows, row.address = a ∧ name ∈ row.labels)

theorem Image.labelled {image : Image} {read : List (Nat × Instruction)} {id : SymbolId} {a : Nat}
    {name : String} (ha : image.symbols.addressOf? id = some a)
    (hname : (image.symbols.get? id).map Symbol.name = some name)
    (hat : a = image.code.size ∨ ∃ i, (a, i) ∈ read) :
    image.Labelled (read.map fun p => image.listingRow p.1 p.2) id name := by
  obtain ⟨symbol, hsymbol, haddress⟩ := Option.bind_eq_some_iff.mp ha
  rw [hsymbol, Option.map_some, Option.some.injEq] at hname
  refine ⟨a, ha, fun hlt => ?_⟩
  rcases hat with hend | ⟨i, hi⟩
  · omega
  · refine ⟨image.listingRow a i, List.mem_map.mpr ⟨(a, i), hi, rfl⟩, rfl, ?_⟩
    rw [← hname]
    exact Image.mem_labelsAt hsymbol haddress

namespace Session

theorem aligned_invariant : BuilderInvariant fun b ls => b.Holds ls ∧ b.Aligned ls where
  empty id := ⟨.empty id, .empty id⟩
  sameImage h hsame := ⟨h.1.of_sameImage hsame, h.2.of_sameImage hsame⟩
  link h hf hlink := ⟨h.1.link hf hlink, h.2.link h.1 hf hlink⟩

theorem aligned_after (cs : List Command) {slot : String} {b : Builder}
    (hb : (after cs).workspace.builders.get? slot = some b) :
    b.Aligned ((after cs).linkedInto b.id) :=
  ((buildersSound_after aligned_invariant cs).holds slot b hb).2

/-- **No symbol is inside an instruction.** However the functions were written, copied and linked,
every address in a complete image is the end of its code or the address of an instruction that is
read from it. So is what stands in the image wherever a symbol was named, which is the address of
that symbol. Hence the listing shows the name of every function and block that was linked, in the
row at its address, unless there is no code left at that address. -/
theorem symbols_at_boundaries (cs : List Command) (slot : String) (b : Builder) (image : Image)
    (hb : (after cs).workspace.builders.get? slot = some b) (himage : b.finish = .ok image) :
    ∃ read rows, image.instructions = .ok (List.toArray read) ∧ image.listingRows = .ok rows ∧
      (∀ id a, image.symbols.addressOf? id = some a →
        a = image.code.size ∨ ∃ i, (a, i) ∈ read) ∧
      (∀ a i id, (a, i) ∈ withAddresses 0 (instructionsOf ((after cs).linkedInto b.id)) →
        i.symbol? = some id →
        ∃ target, readAddress (image.code.toList.drop (a + i.head.length)) = some target ∧
          image.symbols.addressOf? id = some target ∧
          (target = image.code.size ∨ ∃ j, (target, j) ∈ read)) ∧
      ∀ l ∈ (after cs).linkedInto b.id,
        image.Labelled rows l.value.symbol l.value.name ∧
        ∀ (k : Nat) block, l.value.blocks[k]? = some block →
          image.Labelled rows block.symbol (blockLabel l.value.name k) := by
  have h := holds_after cs hb
  obtain ⟨hdone, rfl⟩ := h.finish_eq_ok himage
  have hread := h.disassemble_code
  have hat := (aligned_after cs hb).address_cases h
  refine ⟨_, _, hread, Image.listingRows_of_instructions hread, hat, ?_, ?_⟩
  · intro a i id hi hid
    -- Nothing waits any more, so the symbol has an address and that is what was written.
    have hmem : i ∈ instructionsOf ((after cs).linkedInto b.id) := by
      rw [← map_snd_withAddresses 0 (instructionsOf _)]
      exact List.mem_map_of_mem hi
    obtain ⟨haddress, hle⟩ := h.addressOf?_of_symbol? hdone hmem hid
    refine ⟨b.symbols.valueOf id, ?_, haddress, hat id _ haddress⟩
    show readAddress (b.code.toList.drop (a + i.head.length)) = _
    rw [h.code]
    exact readAddress_codeAt hi hid (Nat.lt_of_le_of_lt hle h.code_lt)
  · intro l hl
    have hplaced := (placed_after cs hb).resolved
    have hnames := (registered_after cs).names slot b hb
    have hknown := knownTo_of_linkedInto cs hb hl
    -- What was linked has an address, and its symbol the name that it is registered under.
    constructor
    · obtain ⟨a, ha⟩ := Option.isSome_iff_exists.mp
        ((hplaced l.value.symbol).mpr ⟨l, hl, .inl rfl⟩)
      exact Image.labelled ha (hnames.functions _ _ hknown.name) (hat _ a ha)
    · intro k block hblock
      have hk : (l.value.blocks.toList.map Block.symbol)[k]? = some block.symbol := by
        simp [hblock]
      obtain ⟨a, ha⟩ := Option.isSome_iff_exists.mp ((hplaced block.symbol).mpr
        ⟨l, hl, .inr ⟨block, Array.mem_of_getElem? hblock, rfl⟩⟩)
      exact Image.labelled ha (hnames.labels _ _ (hknown.labels k _ hk)) (hat _ a ha)

/-- The third function has no code, so its symbol is at the end. The second block of the first
function is behind a call, and the row of the second function bears its name. -/
theorem boundaries_mutualJumps : ∃ b image read rows,
    (after (mutualJumps ++ [.link "b" "late"])).workspace.builders.get? "b" = some b ∧
    b.finish = .ok image ∧ image.instructions = .ok (List.toArray read) ∧
    image.listingRows = .ok rows ∧ image.code.size = 40 ∧
    image.symbols.addressOf? ⟨2⟩ = some 40 ∧ (∃ i, (9, i) ∈ read) ∧
    ∃ row ∈ rows, row.address = 22 ∧ "helper" ∈ row.labels := by
  have hplaces : ((after (mutualJumps ++ [.link "b" "late"])).workspace.builders.get? "b").bind
      (fun b => b.finish.toOption.map fun image => (b.id, image.code.size,
        [⟨1⟩, ⟨2⟩, ⟨4⟩].map image.symbols.addressOf?)) =
      some (⟨0⟩, 40, [some 22, some 40, some 9]) := by
    decide +kernel
  have hlinked : ((after (mutualJumps ++ [.link "b" "late"])).linkedInto ⟨0⟩).map
      (fun l => (l.value.symbol, l.value.name)) =
      [(⟨0⟩, "main"), (⟨1⟩, "helper"), (⟨2⟩, "late")] := by
    decide +kernel
  obtain ⟨b, hb, hplaces⟩ := Option.bind_eq_some_iff.mp hplaces
  obtain ⟨image, himage, hplaces⟩ := Option.map_eq_some_iff.mp hplaces
  simp only [Prod.mk.injEq, List.map_cons, List.map_nil, List.cons.injEq, and_true] at hplaces
  obtain ⟨hid, hsize, hhelper, hlate, hloop⟩ := hplaces
  have hfinish := toOption_eq_some.mp himage
  obtain ⟨read, rows, hread, hrows, hat, -, hlabels⟩ :=
    symbols_at_boundaries _ "b" b image hb hfinish
  obtain ⟨l, hl, heq⟩ : ∃ l ∈ (after (mutualJumps ++ [.link "b" "late"])).linkedInto ⟨0⟩,
      (l.value.symbol, l.value.name) = (⟨1⟩, "helper") :=
    List.mem_map.mp (hlinked ▸ by decide)
  rw [Prod.mk.injEq] at heq
  rw [← hid] at hl
  obtain ⟨a, ha, hrow⟩ := (hlabels l hl).1
  rw [heq.1, hhelper, Option.some.injEq] at ha
  rw [heq.2, ← ha] at hrow
  refine ⟨b, image, read, rows, hb, hfinish, hread, hrows, hsize, hlate, ?_, hrow (by omega)⟩
  exact (hat ⟨4⟩ 9 hloop).resolve_left (by omega)

end Session

end ImageLinker
