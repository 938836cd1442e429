import ImageLinker.Proofs.Canonicity
import ImageLinker.Proofs.ReadBack

/-!
# The bytes of a listing

A listing gives each instruction with its address and its bytes. The addresses come from reading the
image, and cut it into stretches without remainder. The bytes do not: they are as many as the
instruction takes when it is encoded once more. The two agree except for a control transfer to a
symbol that turned out to be at zero. Its target is written out in the image, but it is read as
zero, which is encoded as a single byte; its row shows that byte and leaves out the target.

* `stretches`: code cut at given addresses.
* `Instruction.listed`: what a row shows of an instruction.
* `Instruction.encodedSize_canon_iff`: which instructions are shown in full.
* `Session.listing_stretches`: the rows of a complete image against its stretches.
-/

namespace ImageLinker

/-- Code cut at the given addresses. Each stretch ends where the next one begins, and the last one
with the code. -/
def stretches (code : Code) : List Nat → List (List UInt8)
  | [] => []
  | start :: rest => (code.extract start (rest.headD code.size)).toList :: stretches code rest

/-! ## Rows and stretches of written code -/

section Code

variable (address : SymbolId → Nat)

theorem map_snd_withAddresses (start : Nat) (is : List Instruction) :
    (withAddresses start is).map Prod.snd = is := by
  induction is generalizing start with
  | nil => rfl
  | cons i is ih => rw [withAddresses, List.map_cons, ih]

theorem headD_withAddresses (start : Nat) (is : List Instruction) :
    ((withAddresses start is).map Prod.fst).headD (start + codeSize is) = start := by
  cases is <;> simp [withAddresses]

theorem extract_append (before middle after : List UInt8) {n : Nat} (hn : n ≤ middle.length) :
    ((before ++ (middle ++ after)).toArray.extract before.length (before.length + n)).toList =
      middle.take n := by
  have hlength : before.length + n - before.length = n := by omega
  simp [hlength, List.take_append_of_le_length hn]

/-- What stands at the address of an instruction are its bytes. Induction on the instructions, with
the code in front of them as the accumulator. -/
theorem extract_codeAt {is : List Instruction} (before : List UInt8) {p : Nat × Instruction}
    (hp : p ∈ withAddresses before.length is) {n : Nat} (hn : n ≤ p.2.encodedSize) :
    ((before ++ codeAt address is).toArray.extract p.1 (p.1 + n)).toList =
      (p.2.bytesAt address).take n := by
  induction is generalizing before with
  | nil => cases hp
  | cons i is ih =>
    rw [withAddresses] at hp
    rw [codeAt_cons]
    rcases List.mem_cons.mp hp with rfl | hp
    · exact extract_append before _ _ (by simpa using hn)
    · rw [← List.append_assoc]
      apply ih
      rw [List.length_append, Instruction.length_bytesAt]
      exact hp

theorem stretches_codeAt (before : List UInt8) (is : List Instruction) :
    stretches (before ++ codeAt address is).toArray
        ((withAddresses before.length is).map Prod.fst) =
      is.map (Instruction.bytesAt address) := by
  induction is generalizing before with
  | nil => rfl
  | cons i is ih =>
    have hrest := ih (before ++ i.bytesAt address)
    rw [List.length_append, Instruction.length_bytesAt, List.append_assoc, ← codeAt_cons] at hrest
    -- The first stretch ends at the next instruction, or with the code if there is none.
    have hnext := headD_withAddresses (before.length + i.encodedSize) is
    have hsize : (before ++ codeAt address (i :: is)).toArray.size =
        before.length + i.encodedSize + codeSize is := by
      rw [List.size_toArray, List.length_append, length_codeAt, codeSize_cons]
      omega
    rw [withAddresses, List.map_cons, stretches, hsize, hnext, hrest, List.map_cons, codeAt_cons,
      extract_append before _ _ (by simp), ← Instruction.length_bytesAt address, List.take_length]

end Code

/-! ## What a row shows of an instruction -/

namespace Instruction

/-- The bytes that a listing shows of an instruction in the image: as many as it takes when it was
read and is encoded again. -/
def listed (address : SymbolId → Nat) (i : Instruction) : List UInt8 :=
  (i.bytesAt address).take (i.canon address).encodedSize

/-- A control transfer to a symbol at zero. -/
def GoesToStart (symbols : Symbols) (i : Instruction) : Prop :=
  ∃ op id, i = .word op (some (.symbol id)) ∧ symbols.addressOf? id = some 0

variable (address : SymbolId → Nat) {i : Instruction}

/-- The bytes in the image are an encoding of what is read, but not always the one that the encoder
chooses. -/
theorem bytesAt_mem_encodings (hcheck : i.check? = none) :
    i.bytesAt address ∈ (i.canon address).encodings := by
  have hdecode := decode_bytesAt address i [] hcheck
  obtain ⟨consumed, hmem, heq⟩ := (decode_eq_ok hdecode).split
  rw [List.append_nil, List.append_nil] at heq
  rwa [heq]

theorem listed_cases (hcheck : i.check? = none) :
    (i.canon address).encodedSize ≤ i.encodedSize ∧
      (i.listed address = i.bytesAt address ∨
        i.bytesAt address = (i.canon address).operation.writtenOutZero ∧
          i.listed address = (i.bytesAt address).take 1) := by
  have hlength := length_bytesAt address i
  unfold listed
  rcases mem_encodings.mp (bytesAt_mem_encodings address hcheck) with
    heq | ⟨op, v, hcanon, hz, heq⟩
  · have hsize : (i.canon address).encodedSize = i.encodedSize := by
      rw [← length_bytes, ← heq, hlength]
    exact ⟨Nat.le_of_eq hsize, .inl (by rw [hsize, ← hlength, List.take_length])⟩
  · -- The target is written out, where the encoder would do with one byte.
    have hsize : (i.canon address).encodedSize = 1 := by
      rw [hcanon]
      simp [encodedSize, hz]
    have hlong : i.encodedSize = 9 := by
      rw [← hlength, heq]
      rfl
    exact ⟨by omega, .inr ⟨by rw [heq, hcanon]; rfl, by rw [hsize]⟩⟩

theorem listed_eq_iff (hcheck : i.check? = none) :
    i.listed address = i.bytesAt address ↔ (i.canon address).encodedSize = i.encodedSize := by
  have hle := (listed_cases address hcheck).1
  constructor
  · intro heq
    have hlength := congrArg List.length heq
    rw [listed, List.length_take, length_bytesAt] at hlength
    omega
  · intro hsize
    rw [listed, hsize, ← length_bytesAt address, List.take_length]

end Instruction

/-- No number that is not zero reads as zero, but an address may be. -/
theorem Immediate.isZero_canon {address : SymbolId → Nat} {v : Immediate}
    (hwidth : v.width = .bits64) (hz : v.isZero = false) :
    (v.canon address).isZero ↔ ∃ id, v = .symbol id ∧ UInt64.ofNat (address id) = 0 := by
  have hbits : ∀ bits : UInt64,
      UInt64.ofNat (bits.toNat % Nat.pow 256 Width.bits64.bytes) = bits := by
    intro bits
    have hlt : bits.toNat < Nat.pow 256 Width.bits64.bytes := bits.toNat_lt
    rw [Nat.mod_eq_of_lt hlt, UInt64.ofNat_toNat]
  cases v with
  | integer width bits =>
    cases hwidth
    simp only [canon, hbits]
    simpa [isZero] using hz
  | float width bits =>
    cases hwidth
    have hne : bits ≠ 0 := by
      rintro rfl
      cases hz
    rw [canon, hbits]
    simpa [isZero] using hne
  | symbol id => simp [canon, isZero]

namespace Instruction

theorem goesToStart_word {symbols : Symbols} {op : Operation} {target : Option Immediate} :
    (word op target).GoesToStart symbols ↔
      ∃ id, target = some (.symbol id) ∧ symbols.addressOf? id = some 0 := by
  constructor
  · rintro ⟨_, id, heq, haddress⟩
    cases heq
    exact ⟨id, rfl, haddress⟩
  · rintro ⟨id, rfl, haddress⟩
    exact ⟨op, id, rfl, haddress⟩

/-- A target that is written out is shown in full unless it reads as zero. -/
theorem encodedSize_canon_word {address : SymbolId → Nat} {op : Operation} {v : Immediate}
    (hwidth : v.width = .bits64) (hz : v.isZero = false) :
    ((word op (some v)).canon address).encodedSize = (word op (some v)).encodedSize ↔
      ¬(v.canon address).isZero := by
  have hcanon : (v.canon address).width = .bits64 := (v.width_canon address).trans hwidth
  simp only [canon, encodedSize, hz, hcanon, hwidth, Bool.false_eq_true, if_false]
  cases (v.canon address).isZero <;> decide

/-- **Which instructions are shown in full:** all but control transfers to a symbol at zero. -/
theorem encodedSize_canon_iff {symbols : Symbols} {i : Instruction} (hcheck : i.check? = none)
    (hplaced : ∀ id, i.symbol? = some id →
      symbols.addressOf? id = some (symbols.valueOf id) ∧ symbols.valueOf id < addressLimit) :
    (i.canon symbols.valueOf).encodedSize = i.encodedSize ↔ ¬i.GoesToStart symbols := by
  cases i with
  | nullary op => simp [canon, GoesToStart]
  | register op mode => simp [canon, GoesToStart]
  | size op width => simp [canon, GoesToStart]
  | argument op a =>
    cases a with
    | implicit => simp [canon, GoesToStart]
    | operand source => simp [canon, GoesToStart]
    | immediate v => simp [canon, encodedSize, GoesToStart]
  | word op target =>
    rw [goesToStart_word]
    cases target with
    | none => simp [canon]
    | some v =>
      cases hz : v.isZero with
      | true =>
        -- A zero is one byte in either form, and no symbol is one.
        have hne : ∀ id, v ≠ .symbol id := by
          rintro id rfl
          cases hz
        have hzero : (Immediate.integer .bits64 0).isZero = true := rfl
        simp [canon, encodedSize, hz, hzero, hne]
      | false =>
        have hwidth := target_of_check hcheck hz
        rw [encodedSize_canon_word hwidth hz, Immediate.isZero_canon hwidth hz, not_iff_not]
        constructor
        · rintro ⟨id, rfl, hzero⟩
          obtain ⟨haddress, hlt⟩ := hplaced id rfl
          have hword : symbols.valueOf id < 2 ^ 64 := hlt
          have hvalue := congrArg UInt64.toNat hzero
          rw [UInt64.toNat_ofNat', Nat.mod_eq_of_lt hword] at hvalue
          exact ⟨id, rfl, by rw [haddress, hvalue]; rfl⟩
        · rintro ⟨id, heq, haddress⟩
          cases heq
          exact ⟨id, rfl, by rw [Symbols.valueOf, haddress]; rfl⟩

end Instruction

/-! ## Complete images -/

theorem toOption_eq_some {ε α : Type} {x : Except ε α} {a : α} :
    x.toOption = some a ↔ x = .ok a := by
  cases x <;> simp [Except.toOption]

/-- The rows of a listing, from the instructions that were written. -/
theorem Image.listingRows_of_code (image : Image) {address : SymbolId → Nat}
    {is : List Instruction} (hcode : image.code = (codeAt address is).toArray)
    (hcheck : ∀ i ∈ is, i.check? = none) :
    ∃ rows, image.listingRows = .ok rows ∧
      stretches image.code (rows.map ListingRow.address) = is.map (Instruction.bytesAt address) ∧
      List.Forall₂ (fun row i => i.check? = none ∧ row.instruction = i.canon address ∧
        row.bytes = i.listed address) rows is := by
  have hread : image.instructions =
      .ok ((withAddresses 0 is).map fun p => (p.1, p.2.canon address)).toArray := by
    rw [instructions, disassemble, hcode, disassembleFrom_codeAt _ _ hcheck]
    simp
  refine ⟨_, listingRows_of_instructions hread, ?_, ?_⟩
  · rw [List.map_map, List.map_map, hcode]
    exact stretches_codeAt address [] is
  · have hrows : List.Forall₂ (fun row i => i.check? = none ∧ row.instruction = i.canon address ∧
        row.bytes = i.listed address)
        ((withAddresses 0 is).map fun p => image.listingRow p.1 (p.2.canon address))
        ((withAddresses 0 is).map Prod.snd) := by
      rw [List.forall₂_map_left_iff, List.forall₂_map_right_iff, List.forall₂_same]
      intro p hp
      have hmem : p.2 ∈ is := by
        rw [← map_snd_withAddresses 0 is]
        exact List.mem_map_of_mem hp
      have hle := (Instruction.listed_cases address (hcheck _ hmem)).1
      refine ⟨hcheck _ hmem, rfl, ?_⟩
      show (image.code.extract _ _).toList = _
      rw [hcode]
      exact extract_codeAt address [] hp hle
    rw [map_snd_withAddresses] at hrows
    rw [List.map_map]
    exact hrows

theorem Instruction.length_listed_le (address : SymbolId → Nat) (i : Instruction) :
    (i.listed address).length ≤ i.encodedSize := by
  rw [listed, List.length_take, length_bytesAt]
  exact Nat.min_le_right _ _

theorem length_flatten_listed_le (address : SymbolId → Nat) (is : List Instruction) :
    (is.map (Instruction.listed address)).flatten.length ≤ codeSize is := by
  induction is with
  | nil => exact Nat.le_refl 0
  | cons i is ih =>
    have hi := i.length_listed_le address
    rw [List.map_cons, List.flatten_cons, List.length_append, codeSize_cons]
    omega

/-- Rows make up the whole image only if each shows its instruction in full, since none shows
more. -/
theorem flatten_listed_eq_iff {address : SymbolId → Nat} {is : List Instruction} :
    (is.map (Instruction.listed address)).flatten = codeAt address is ↔
      ∀ i ∈ is, i.listed address = i.bytesAt address := by
  induction is with
  | nil => simp
  | cons i is ih =>
    rw [List.map_cons, List.flatten_cons, codeAt_cons, List.forall_mem_cons]
    constructor
    · intro heq
      have hlength := congrArg List.length heq
      rw [List.length_append, List.length_append, length_codeAt, Instruction.length_bytesAt]
        at hlength
      have hi := i.length_listed_le address
      have his := length_flatten_listed_le address is
      obtain ⟨hfirst, hrest⟩ := List.append_inj heq (by rw [Instruction.length_bytesAt]; omega)
      exact ⟨hfirst, ih.mp hrest⟩
    · rintro ⟨hfirst, hrest⟩
      rw [hfirst, ih.mpr hrest]

theorem Builder.Holds.listed_eq_iff {b : Builder} {ls : List LinkedFunction} (h : b.Holds ls)
    (hdone : b.pending = []) :
    (∀ i ∈ instructionsOf ls, i.listed b.symbols.valueOf = i.bytesAt b.symbols.valueOf) ↔
      ∀ i ∈ instructionsOf ls, ¬i.GoesToStart b.symbols := by
  refine forall₂_congr fun i hi => ?_
  rw [Instruction.listed_eq_iff _ (h.checked i hi),
    Instruction.encodedSize_canon_iff (h.checked i hi)]
  intro id hid
  obtain ⟨haddress, hle⟩ := h.addressOf?_of_symbol? hdone hi hid
  exact ⟨haddress, Nat.lt_of_le_of_lt hle h.code_lt⟩

namespace Session

/-- **The bytes of a listing.** The addresses of the rows cut a complete image into stretches that
leave nothing out. Each row shows its stretch, unless that is a control transfer with a zero written
out as its target, of which only the first byte is shown. So the rows show the image in full if and
only if no control transfer that was linked names a symbol at zero. -/
theorem listing_stretches (cs : List Command) (slot : String) (b : Builder) (image : Image)
    (hb : (after cs).workspace.builders.get? slot = some b) (himage : b.finish = .ok image) :
    ∃ rows, image.listingRows = .ok rows ∧
      (stretches image.code (rows.map ListingRow.address)).flatten = image.code.toList ∧
      List.Forall₂ (fun row stretch => row.bytes = stretch ∨
          stretch = row.instruction.operation.writtenOutZero ∧ row.bytes = stretch.take 1)
        rows (stretches image.code (rows.map ListingRow.address)) ∧
      (rows.map ListingRow.bytes = stretches image.code (rows.map ListingRow.address) ↔
        ∀ i ∈ instructionsOf ((after cs).linkedInto b.id), ¬i.GoesToStart image.symbols) ∧
      (rows.flatMap ListingRow.bytes = image.code.toList ↔
        ∀ i ∈ instructionsOf ((after cs).linkedInto b.id), ¬i.GoesToStart image.symbols) := by
  have h := holds_after cs hb
  obtain ⟨hdone, rfl⟩ := h.finish_eq_ok himage
  obtain ⟨rows, hlisting, hstretches, hrows⟩ :=
    Image.listingRows_of_code ⟨b.code, b.symbols, b.names, b.globals⟩ h.code h.checked
  have hcode : b.code.toList =
      codeAt b.symbols.valueOf (instructionsOf ((after cs).linkedInto b.id)) :=
    congrArg Array.toList h.code
  have hbytes : rows.map ListingRow.bytes =
      (instructionsOf ((after cs).linkedInto b.id)).map (Instruction.listed b.symbols.valueOf) := by
    rw [← List.forall₂_eq_eq_eq, List.forall₂_map_left_iff, List.forall₂_map_right_iff]
    exact hrows.imp fun row i hrow => hrow.2.2
  refine ⟨rows, hlisting, ?_, ?_, ?_, ?_⟩
  · rw [hstretches, hcode]
    rfl
  · rw [hstretches, List.forall₂_map_right_iff]
    refine hrows.imp fun row i ⟨hcheck, hinstruction, hrow⟩ => ?_
    rw [hrow, hinstruction]
    exact (Instruction.listed_cases _ hcheck).2
  · rw [hstretches, hbytes, List.map_inj_left]
    exact h.listed_eq_iff hdone
  · rw [List.flatMap_def, hbytes, hcode, flatten_listed_eq_iff]
    exact h.listed_eq_iff hdone

/-- The jump back to the first block is written out with its zero, and only its first byte is
shown. -/
theorem listing_mutualJumps : ∃ b image rows,
    (after (mutualJumps ++ [.link "b" "late"])).workspace.builders.get? "b" = some b ∧
    b.finish = .ok image ∧ image.listingRows = .ok rows ∧
    (stretches image.code (rows.map ListingRow.address)).flatten = image.code.toList ∧
    rows.flatMap ListingRow.bytes ≠ image.code.toList := by
  have hjump : ((after (mutualJumps ++ [.link "b" "late"])).workspace.builders.get? "b").bind
      (fun b => b.finish.toOption.map fun image => (image.symbols.addressOf? ⟨3⟩,
        decide (.word .jmp (some (.symbol ⟨3⟩)) ∈ instructionsOf
          ((after (mutualJumps ++ [.link "b" "late"])).linkedInto b.id)))) =
      some (some 0, true) := by
    decide +kernel
  obtain ⟨b, hb, hjump⟩ := Option.bind_eq_some_iff.mp hjump
  obtain ⟨image, himage, hjump⟩ := Option.map_eq_some_iff.mp hjump
  rw [Prod.mk.injEq, decide_eq_true_iff] at hjump
  have hfinish := toOption_eq_some.mp himage
  obtain ⟨rows, hlisting, hflatten, -, -, hshown⟩ :=
    listing_stretches _ "b" b image hb hfinish
  refine ⟨b, image, rows, hb, hfinish, hlisting, hflatten, fun hall => ?_⟩
  exact hshown.mp hall _ hjump.2 ⟨.jmp, ⟨3⟩, rfl, hjump.1⟩

/-- A program that is nothing but a jump to itself. -/
def jumpToStart : List Command :=
  [ .newBuilder "b" initialCapacity,
    .newFunction "b" "main" "main",
    .appendBlock "b" "main" "entry",
    .emit "main" "entry" (.word .jmp (some (.symbol ⟨1⟩))) 1,
    .link "b" "main" ]

/-- Its image has nine bytes and one row, and the row shows one byte. -/
theorem listing_jumpToStart : ∃ b image rows,
    (after jumpToStart).workspace.builders.get? "b" = some b ∧ b.finish = .ok image ∧
    image.listingRows = .ok rows ∧ image.code = #[0x6B, 0, 0, 0, 0, 0, 0, 0, 0] ∧
    rows.map ListingRow.bytes = [[0x6B]] ∧
    rows.map ListingRow.bytes ≠ stretches image.code (rows.map ListingRow.address) ∧
    rows.flatMap ListingRow.bytes ≠ image.code.toList := by
  have hshort : ((after jumpToStart).workspace.builders.get? "b").bind (fun b =>
      b.finish.toOption.bind fun image => image.listingRows.toOption.map fun rows =>
        (image.code, rows.map ListingRow.address, rows.map ListingRow.bytes)) =
      some (#[0x6B, 0, 0, 0, 0, 0, 0, 0, 0], [0], [[0x6B]]) := by
    decide +kernel
  obtain ⟨b, hb, hshort⟩ := Option.bind_eq_some_iff.mp hshort
  obtain ⟨image, himage, hshort⟩ := Option.bind_eq_some_iff.mp hshort
  obtain ⟨rows, hrows, hshort⟩ := Option.map_eq_some_iff.mp hshort
  simp only [Prod.mk.injEq] at hshort
  obtain ⟨hcode, haddresses, hbytes⟩ := hshort
  refine ⟨b, image, rows, hb, toOption_eq_some.mp himage, toOption_eq_some.mp hrows, hcode, hbytes,
    ?_, ?_⟩
  · rw [hbytes, haddresses, hcode]
    decide
  · rw [List.flatMap_def, hbytes, hcode]
    decide

end Session

end ImageLinker
