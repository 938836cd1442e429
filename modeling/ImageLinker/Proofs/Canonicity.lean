import ImageLinker.Proofs.RoundTrip

/-!
# Writing back what was read

The decoder accepts little that the encoder does not write. An instruction that was read passes the
check, refers to no symbol, and its bytes are those it was read from. There is one exception: a
control transfer to zero is written as a single byte, but it is also read with its target written
out (`Operation.writtenOutZero`), as linking leaves it where a symbol turns out to be at zero.

* `decode_eq_ok`: what was read is exact and stands in front of the rest, in one of its `encodings`.
* `decode_of_mem_encodings`: each of the `encodings` is read.
* `encode_decode`: the two together, in terms of the encoder.
-/

namespace ImageLinker

/-- A control transfer to zero with its eight bytes written out. -/
def Operation.writtenOutZero (op : Operation) : List UInt8 :=
  opcodeByte op (Coded.code WordMode.hasImmediate) :: List.replicate addressSize 0

/-- Everything that is read as the instruction: its bytes, and for a control transfer to zero the
target written out as well. -/
def Instruction.encodings : Instruction → List (List UInt8)
  | word op (some target) =>
    if target.isZero then [(word op (some target)).bytes, op.writtenOutZero]
    else [(word op (some target)).bytes]
  | i => [i.bytes]

theorem Instruction.mem_encodings {i : Instruction} {e : List UInt8} :
    e ∈ i.encodings ↔
      e = i.bytes ∨ ∃ op v, i = .word op (some v) ∧ v.isZero ∧ e = op.writtenOutZero := by
  unfold encodings
  split
  · rename_i op v
    simp only [word.injEq, Option.some.injEq]
    split
    · rename_i hz
      rw [List.mem_cons, List.mem_singleton]
      constructor
      · rintro (rfl | rfl)
        · exact .inl rfl
        · exact .inr ⟨op, v, ⟨rfl, rfl⟩, hz, rfl⟩
      · rintro (rfl | ⟨_, _, ⟨rfl, rfl⟩, -, rfl⟩)
        · exact .inl rfl
        · exact .inr rfl
    · rename_i hz
      rw [List.mem_singleton, iff_self_or]
      rintro ⟨_, _, ⟨rfl, rfl⟩, hzero, -⟩
      exact absurd hzero hz
  · rename_i i hno
    simp only [List.mem_singleton, iff_self_or]
    rintro ⟨op, v, rfl, -⟩
    exact absurd rfl (hno op v)

theorem Instruction.bytes_mem_encodings (i : Instruction) : i.bytes ∈ i.encodings :=
  mem_encodings.mpr (.inl rfl)

/-! ## Opcode bytes -/

theorem byte_split : ∀ n : Fin 256,
    (UInt8.ofNat n &&& codeMask) ||| (UInt8.ofNat n >>> modeShift) <<< modeShift = UInt8.ofNat n ∧
      UInt8.ofNat n >>> modeShift < 4 := by
  decide +kernel

/-- An opcode byte is its operation and its mode. -/
theorem eq_opcodeByte {head : UInt8} {op : Operation}
    (hop : (Coded.ofCode? (head &&& codeMask) : Option Operation) = some op) :
    head = opcodeByte op (head >>> modeShift) := by
  have hcode : op.code = head &&& codeMask := Coded.ofCode?_eq_some_iff.mp hop
  have hsplit := (byte_split ⟨head.toNat, head.toNat_lt⟩).1
  rw [UInt8.ofNat_toNat] at hsplit
  rw [opcodeByte, hcode, hsplit]

theorem mode_lt (head : UInt8) : head >>> modeShift < 4 := by
  have hsplit := (byte_split ⟨head.toNat, head.toNat_lt⟩).2
  rwa [UInt8.ofNat_toNat] at hsplit

theorem Width.tag_ofTag {t : UInt8} (h : t < 4) : (ofTag t).tag = t := by
  have hall : ∀ n : Fin 4, (ofTag (UInt8.ofNat n)).tag = UInt8.ofNat n := by decide
  have ht := hall ⟨t.toNat, h⟩
  rwa [UInt8.ofNat_toNat] at ht

/-! ## Reading -/

/-- What is known of an instruction that was read off the front of `bytes`. -/
structure Decoded.Accounts (d : Decoded) (bytes : List UInt8) : Prop where
  checked : d.instruction.check? = none
  exact : d.instruction.IsExact
  split : ∃ consumed ∈ d.instruction.encodings, bytes = consumed ++ d.rest

namespace Decoded

variable {op : Operation} {mode : UInt8} {bytes : List UInt8} {d : Decoded}

theorem withImmediate_eq_ok {build : Immediate → Instruction} {offset : Nat} {width : Width}
    (h : withImmediate build offset width bytes = .ok d) :
    ∃ v : Immediate, v.IsExact ∧ v.width = width ∧ d.instruction = build v ∧
      bytes = v.bytes ++ d.rest := by
  unfold withImmediate at h
  split at h
  · cases h
  · rename_i front rest hs
    obtain ⟨hlen, rfl⟩ := split?_eq_some_iff.mp hs
    cases h
    -- The number fits into its width, so nothing of it is lost in a word.
    have hlt : ofLeBytes front < Nat.pow 256 width.bytes := by
      rw [← hlen]
      exact ofLeBytes_lt front
    have hword : Nat.pow 256 width.bytes ≤ 2 ^ 64 := by cases width <;> decide
    have hvalue : (UInt64.ofNat (ofLeBytes front)).toNat = ofLeBytes front := by
      rw [UInt64.toNat_ofNat', Nat.mod_eq_of_lt (by omega)]
    refine ⟨.integer width (UInt64.ofNat (ofLeBytes front)), ?_, rfl, rfl, ?_⟩
    · show (UInt64.ofNat (ofLeBytes front)).toNat < Nat.pow 256 width.bytes
      rw [hvalue]
      exact hlt
    · show front ++ rest = leBytes width.bytes (UInt64.ofNat (ofLeBytes front)).toNat ++ rest
      rw [hvalue, ← hlen, leBytes_ofLeBytes]

/-- An argument that was read has one encoding only: values of one and eight bytes are refused
behind a descriptor. -/
theorem argument_eq_ok (hshape : op.shape = .argument) (h : argument op mode bytes = .ok d) :
    d.Accounts (opcodeByte op mode :: bytes) := by
  have himmediate : ∀ v : Immediate, v.IsExact → ∀ front rest,
      front = (Instruction.argument op (.immediate v)).head →
      Accounts ⟨.argument op (.immediate v), d.length, rest⟩ (front ++ v.bytes ++ rest) := by
    rintro v hv front rest rfl
    refine ⟨?_, hv, _, Instruction.bytes_mem_encodings _, rfl⟩
    simp [Instruction.check?, Instruction.operation, Instruction.shape, hshape]
  unfold argument at h
  cases hmode : (Coded.ofCode? mode : Option ArgumentMode) with
  | none => simp [hmode] at h
  | some m =>
  have hcode : Coded.code m = mode := Coded.ofCode?_eq_some_iff.mp hmode
  subst hcode
  simp only [hmode] at h
  cases m with
  | implicit =>
    cases h
    refine ⟨?_, trivial, _, Instruction.bytes_mem_encodings _, rfl⟩
    simp [Instruction.check?, Instruction.operation, Instruction.shape, hshape]
  | byteImmediate =>
    obtain ⟨v, hv, hwidth, hbuild, rfl⟩ := withImmediate_eq_ok h
    have haccounts := himmediate v hv _ d.rest rfl
    simp only [Instruction.head, hwidth, ← hbuild] at haccounts
    exact haccounts
  | wordImmediate =>
    obtain ⟨v, hv, hwidth, hbuild, rfl⟩ := withImmediate_eq_ok h
    have haccounts := himmediate v hv _ d.rest rfl
    simp only [Instruction.head, hwidth, ← hbuild] at haccounts
    exact haccounts
  | explicitOperand =>
    cases bytes with
    | nil => cases h
    | cons descriptor rest =>
    cases hsource : (Coded.ofCode? descriptor : Option Source) with
    | none => simp [hsource] at h
    | some source =>
    have hcode : Coded.code source = descriptor := Coded.ofCode?_eq_some_iff.mp hsource
    subst hcode
    simp only [hsource] at h
    cases hwidth? : source.width? with
    | none =>
      simp only [hwidth?] at h
      cases h
      refine ⟨?_, trivial, _, Instruction.bytes_mem_encodings _, rfl⟩
      simp [Instruction.check?, Instruction.operation, Instruction.shape, hshape,
        Source.isImmediate, hwidth?]
    | some w =>
      -- The descriptor is the one that the encoder would choose for this width.
      have hofWidth : source = Source.ofWidth w := by
        cases source <;> cases hwidth? <;> rfl
      simp only [hwidth?] at h
      cases w with
      | bits8 => cases h
      | bits64 => cases h
      | bits16 =>
        obtain ⟨v, hv, hwidth, hbuild, rfl⟩ := withImmediate_eq_ok h
        have haccounts := himmediate v hv _ d.rest rfl
        simp only [Instruction.head, hwidth, ← hbuild, ← hofWidth] at haccounts
        exact haccounts
      | bits32 =>
        obtain ⟨v, hv, hwidth, hbuild, rfl⟩ := withImmediate_eq_ok h
        have haccounts := himmediate v hv _ d.rest rfl
        simp only [Instruction.head, hwidth, ← hbuild, ← hofWidth] at haccounts
        exact haccounts

/-- A control transfer that was read had its target written out if it is not zero. -/
theorem word_eq_ok (hshape : op.shape = .word) (h : word op mode bytes = .ok d) :
    d.Accounts (opcodeByte op mode :: bytes) := by
  unfold word at h
  cases hmode : (Coded.ofCode? mode : Option WordMode) with
  | none => simp [hmode] at h
  | some m =>
  have hcode : Coded.code m = mode := Coded.ofCode?_eq_some_iff.mp hmode
  subst hcode
  simp only [hmode] at h
  cases m with
  | usesLeft =>
    cases h
    refine ⟨?_, trivial, _, Instruction.bytes_mem_encodings _, rfl⟩
    simp [Instruction.check?, Instruction.operation, Instruction.shape, hshape]
  | zeroImmediate =>
    cases h
    have hzero : (Immediate.integer .bits64 0).IsExact := by
      show (0 : UInt64).toNat < Nat.pow 256 8
      decide
    refine ⟨?_, ⟨hzero, by decide⟩, _, Instruction.bytes_mem_encodings _, rfl⟩
    simp [Instruction.check?, Instruction.operation, Instruction.shape, hshape, Immediate.isZero]
  | hasImmediate =>
    obtain ⟨v, hv, hwidth, hbuild, rfl⟩ := withImmediate_eq_ok h
    rcases d with ⟨i, length, rest⟩
    cases hbuild
    have hexact : (Instruction.word op (some v)).IsExact :=
      ⟨hv, fun hnarrow => hnarrow.2 hwidth⟩
    refine ⟨?_, hexact, ?_⟩
    · simp [Instruction.check?, Instruction.operation, Instruction.shape, hshape, hwidth]
    · cases hz : v.isZero with
      | false =>
        refine ⟨_, Instruction.bytes_mem_encodings _, ?_⟩
        simp [Instruction.bytes, Instruction.payload?, Instruction.head, hz]
      | true =>
        -- An exact zero is a zero in all its bytes.
        have hbytes : v.bytes = List.replicate addressSize 0 := by
          rw [eq_zero_of_isExact hexact hz]
          exact leBytes_zero addressSize
        refine ⟨op.writtenOutZero, by simp [Instruction.encodings, hz], ?_⟩
        rw [hbytes, Operation.writtenOutZero, List.cons_append]

end Decoded

/-- **What was read can be written.** The instruction passes the check and is exact, and the bytes
that were taken are among its encodings. -/
theorem decode_eq_ok {bytes : List UInt8} {d : Decoded} (h : decode bytes = .ok d) :
    d.Accounts bytes := by
  cases bytes with
  | nil => cases h
  | cons head rest =>
  cases hop : (Coded.ofCode? (head &&& codeMask) : Option Operation) with
  | none => simp [decode, hop] at h
  | some op =>
  have hhead := eq_opcodeByte hop
  have hmode := mode_lt head
  generalize head >>> modeShift = mode at hhead hmode
  subst hhead
  rw [decode_opcodeByte op hmode] at h
  cases hshape : op.shape <;> simp only [hshape] at h
  case argument => exact Decoded.argument_eq_ok hshape h
  case word => exact Decoded.word_eq_ok hshape h
  case nullary =>
    split at h
    · rename_i hzero
      cases h
      refine ⟨?_, trivial, _, Instruction.bytes_mem_encodings _, ?_⟩
      · simp [Instruction.check?, Instruction.operation, Instruction.shape, hshape]
      · rw [hzero, opcodeByte_zero]
        rfl
    · cases h
  case register =>
    cases hregister : (Coded.ofCode? mode : Option RegisterMode) with
    | none => simp [hregister] at h
    | some register =>
      have hcode : Coded.code register = mode := Coded.ofCode?_eq_some_iff.mp hregister
      simp only [hregister] at h
      cases h
      refine ⟨?_, trivial, _, Instruction.bytes_mem_encodings _, ?_⟩
      · simp [Instruction.check?, Instruction.operation, Instruction.shape, hshape]
      · rw [← hcode]
        rfl
  case size =>
    cases h
    refine ⟨?_, trivial, _, Instruction.bytes_mem_encodings _, ?_⟩
    · simp [Instruction.check?, Instruction.operation, Instruction.shape, hshape]
    · have htag := Width.tag_ofTag hmode
      show _ = [opcodeByte op (Width.ofTag mode).tag] ++ rest
      rw [htag]
      rfl

/-! ## All encodings -/

/-- Zeros behind the opcode byte of a control transfer are its target. -/
theorem decode_writtenOutZero {op : Operation} (hshape : op.shape = .word) (rest : List UInt8) :
    decode (op.writtenOutZero ++ rest) =
      .ok ⟨.word op (some (.integer .bits64 0)), op.writtenOutZero.length, rest⟩ := by
  have hzeros : (Immediate.integer .bits64 0).bytesAt (fun _ => 0) =
      List.replicate addressSize 0 := leBytes_zero addressSize
  have himm := Decoded.withImmediate_bytesAt (fun v => .word op (some v)) 1 (fun _ => 0)
    (.integer .bits64 0) rest
  rw [hzeros] at himm
  have hmode : Coded.code WordMode.hasImmediate < 4 := by decide
  rw [Operation.writtenOutZero, List.cons_append, decode_opcodeByte op hmode, hshape]
  show Decoded.word op (Coded.code WordMode.hasImmediate) _ = _
  rw [Decoded.word, Coded.ofCode?_code]
  exact himm

theorem decode_of_mem_encodings {i : Instruction} (hcheck : i.check? = none) (hexact : i.IsExact)
    {e : List UInt8} (he : e ∈ i.encodings) (rest : List UInt8) :
    decode (e ++ rest) = .ok ⟨i, e.length, rest⟩ := by
  rcases Instruction.mem_encodings.mp he with rfl | ⟨op, v, rfl, hz, rfl⟩
  · have hdecode := decode_bytesAt (fun _ => 0) i rest hcheck
    rwa [Instruction.bytesAt_zero, Instruction.canon_of_isExact _ hexact,
      ← Instruction.length_bytes] at hdecode
  · rw [eq_zero_of_isExact hexact hz]
    exact decode_writtenOutZero (Instruction.shape_of_check hcheck) rest

/-- The two ways to write a control transfer to zero differ. -/
theorem Instruction.bytes_ne_writtenOutZero {op : Operation} {v : Immediate} (hz : v.isZero) :
    (Instruction.word op (some v)).bytes ≠ op.writtenOutZero := by
  intro heq
  have hlength := congrArg List.length heq
  simp [encodedSize, hz, Operation.writtenOutZero, addressSize] at hlength

theorem Instruction.encodings_nodup (i : Instruction) : i.encodings.Nodup := by
  unfold encodings
  split
  · rename_i op v
    split
    · rename_i hz
      simpa using bytes_ne_writtenOutZero hz
    · simp
  · simp

/-! ## The encoder -/

theorem Instruction.fixup?_of_isExact {i : Instruction} (h : i.IsExact) (start : Nat) :
    i.fixup? start = none := by
  have hinteger : ∀ v : Immediate, v.IsExact → v.symbol? = none := by
    intro v hv
    cases v with
    | integer width bits => rfl
    | float width bits => rfl
    | symbol id => exact hv.elim
  cases hp : i.payload? with
  | none => simp [fixup?, hp]
  | some v =>
    have hv : v.IsExact := by
      unfold payload? at hp
      split at hp
      · cases hp
        exact h
      · rename_i target
        split at hp
        · cases hp
        · cases hp
          exact h.1
      · cases hp
    simp [fixup?, hp, hinteger v hv]

/-- **Encoding undoes decoding.** An instruction that was read is accepted by the encoder, leaves no
fixup, and is written as it was read, unless it is a control transfer whose target was written out
and is zero: that one is written as its opcode byte alone. Nothing is read as the same instruction
but its `encodings`, of which there are two for a control transfer to zero and one otherwise. -/
theorem encode_decode (bytes : List UInt8) (d : Decoded) (h : decode bytes = .ok d) :
    ∃ consumed, consumed ≠ [] ∧ bytes = consumed ++ d.rest ∧
      (∀ code : Code, d.instruction.encode code = .ok (code ++ d.instruction.bytes, none)) ∧
      (d.instruction.bytes ≠ consumed ↔
        d.instruction.shape = .word ∧ consumed = d.instruction.operation.writtenOutZero) ∧
      (d.instruction.bytes ≠ consumed → d.instruction.bytes =
        [opcodeByte d.instruction.operation (Coded.code WordMode.zeroImmediate)]) ∧
      d.instruction.encodings.Nodup ∧
      ∀ e, (∃ length, decode e = .ok ⟨d.instruction, length, []⟩) ↔
        e ∈ d.instruction.encodings := by
  obtain ⟨hcheck, hexact, consumed, hconsumed, hbytes⟩ := decode_eq_ok h
  have hzero : ∀ op v, d.instruction = .word op (some v) → v.isZero →
      d.instruction.bytes = [opcodeByte op (Coded.code WordMode.zeroImmediate)] ∧
        d.instruction.bytes ≠ op.writtenOutZero := by
    intro op v hi hz
    rw [hi]
    refine ⟨?_, Instruction.bytes_ne_writtenOutZero hz⟩
    simp [Instruction.bytes, Instruction.payload?, Instruction.head, hz]
  refine ⟨consumed, ?_, hbytes, ?_, ⟨?_, ?_⟩, ?_, d.instruction.encodings_nodup, ?_⟩
  · rintro rfl
    have hlt := decode_rest_lt h
    rw [hbytes, List.nil_append] at hlt
    exact Nat.lt_irrefl _ hlt
  · intro code
    simp only [Instruction.encode, hcheck, Instruction.write,
      Instruction.fixup?_of_isExact hexact]
  · intro hne
    rcases Instruction.mem_encodings.mp hconsumed with heq | ⟨op, v, hi, -, heq⟩
    · exact absurd heq.symm hne
    · rw [hi]
      exact ⟨rfl, heq⟩
  · -- Such bytes are read as a control transfer to zero, and as nothing else.
    rintro ⟨hshape, heq⟩
    rw [← Instruction.shape_of_check hcheck] at hshape
    rw [hbytes, heq, decode_writtenOutZero hshape, Except.ok.injEq] at h
    have hi := congrArg Decoded.instruction h
    rw [heq]
    exact (hzero _ _ hi.symm rfl).2
  · intro hne
    rcases Instruction.mem_encodings.mp hconsumed with heq | ⟨op, v, hi, hz, heq⟩
    · exact absurd heq.symm hne
    · rw [(hzero op v hi hz).1, hi]
      rfl
  · intro e
    constructor
    · rintro ⟨length, he⟩
      obtain ⟨-, -, taken, htaken, heq⟩ := decode_eq_ok he
      rw [heq, List.append_nil]
      exact htaken
    · intro he
      have hdecode := decode_of_mem_encodings hcheck hexact he []
      rw [List.append_nil] at hdecode
      exact ⟨e.length, hdecode⟩

/-- A jump whose target was written out as zero is read, and it is written as one byte. Both are
read as the same jump. -/
theorem encode_decode_jumpToZero :
    decode [0x6B, 0, 0, 0, 0, 0, 0, 0, 0, 0xFF] =
      .ok ⟨.word .jmp (some (.integer .bits64 0)), 9, [0xFF]⟩ ∧
    Instruction.encode (.word .jmp (some (.integer .bits64 0))) #[] = .ok (#[0xAB], none) ∧
    ∀ e, (∃ length, decode e = .ok ⟨.word .jmp (some (.integer .bits64 0)), length, []⟩) ↔
      e ∈ [[0xAB], [0x6B, 0, 0, 0, 0, 0, 0, 0, 0]] := by
  have hdecode : decode [0x6B, 0, 0, 0, 0, 0, 0, 0, 0, 0xFF] =
      .ok ⟨.word .jmp (some (.integer .bits64 0)), 9, [0xFF]⟩ := rfl
  obtain ⟨consumed, -, -, hencode, -, -, -, hall⟩ := encode_decode _ _ hdecode
  exact ⟨hdecode, hencode #[], hall⟩

end ImageLinker
