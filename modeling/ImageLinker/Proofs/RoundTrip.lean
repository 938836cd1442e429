import ImageLinker.Instruction.Canonical
import ImageLinker.Instruction.Decoding
import ImageLinker.Instruction.Encoding

/-!
# Reading back what was written

An instruction that passes the check can be read back from its bytes, whatever follows them. What
comes back is its canonical form: the bytes do not tell an integer from a float or from the address
of a symbol, and they hold no more of a value than its width.

The bytes of an instruction are stated here for any addresses of symbols (`Instruction.bytesAt`), so
that one law covers code before linking, where every address is zero, and code in an image:

* `opcodeByte_split`: the two parts of an opcode byte are read back.
* `Decoded.withImmediate_bytesAt`: so is an immediate of any width.
* `decode_bytesAt`: the law for whole instructions, one case per form.
* `decode_encode`: what the encoder appends to code decodes to the canonical instruction, and to
  the instruction itself if it is exact.
-/

namespace ImageLinker

/-! ## Bytes under given addresses -/

/-- The bytes of an immediate when symbols have the given addresses. -/
def Immediate.bytesAt (address : SymbolId → Nat) : Immediate → List UInt8
  | symbol id => leBytes addressSize (address id)
  | v => v.bytes

@[simp] theorem Immediate.length_bytesAt (address : SymbolId → Nat) (v : Immediate) :
    (v.bytesAt address).length = v.width.bytes := by
  cases v with
  | integer width bits => exact Immediate.length_bytes (.integer width bits)
  | float width bits => exact Immediate.length_bytes (.float width bits)
  | symbol id => exact length_leBytes _ _

/-- Before linking, every address is zero. -/
theorem Immediate.bytesAt_zero (v : Immediate) : v.bytesAt (fun _ => 0) = v.bytes := by
  cases v <;> rfl

namespace Instruction

/-- The bytes of an instruction when symbols have the given addresses. -/
def bytesAt (address : SymbolId → Nat) (i : Instruction) : List UInt8 :=
  match i.payload? with
  | some v => i.head ++ v.bytesAt address
  | none => i.head

theorem bytesAt_zero (i : Instruction) : i.bytesAt (fun _ => 0) = i.bytes := by
  unfold bytesAt bytes
  cases i.payload? with
  | none => rfl
  | some v => simp only [Immediate.bytesAt_zero]

/-- Addresses do not change the size of an instruction. -/
@[simp] theorem length_bytesAt (address : SymbolId → Nat) (i : Instruction) :
    (i.bytesAt address).length = i.encodedSize := by
  rw [← length_bytes]
  unfold bytesAt bytes
  cases i.payload? with
  | none => rfl
  | some v => simp

end Instruction

/-! ## Opcode bytes -/

/-- A six-bit code and a two-bit mode share a byte without touching each other. -/
theorem codeWithMode_split : ∀ (code : Fin 64) (mode : Fin 4),
    (UInt8.ofNat code ||| UInt8.ofNat mode <<< modeShift) &&& codeMask = UInt8.ofNat code ∧
      (UInt8.ofNat code ||| UInt8.ofNat mode <<< modeShift) >>> modeShift = UInt8.ofNat mode := by
  decide

theorem opcodeByte_split (op : Operation) {mode : UInt8} (h : mode < 4) :
    opcodeByte op mode &&& codeMask = op.code ∧ opcodeByte op mode >>> modeShift = mode := by
  have hcode : op.code.toNat < 64 := op.code_lt
  have hmode : mode.toNat < 4 := h
  have hsplit := codeWithMode_split ⟨op.code.toNat, hcode⟩ ⟨mode.toNat, hmode⟩
  simpa [opcodeByte] using hsplit

/-- The decoder looks the operation of an opcode byte up and goes on by its shape. -/
theorem decode_opcodeByte (op : Operation) {mode : UInt8} (h : mode < 4) (rest : List UInt8) :
    decode (opcodeByte op mode :: rest) =
      match op.shape with
      | .nullary => if mode = 0 then .ok ⟨.nullary op, 1, rest⟩ else .error .malformed
      | .register =>
        match (Coded.ofCode? mode : Option RegisterMode) with
        | none => .error .malformed
        | some register => .ok ⟨.register op register, 1, rest⟩
      | .size => .ok ⟨.size op (Width.ofTag mode), 1, rest⟩
      | .word => Decoded.word op mode rest
      | .argument => Decoded.argument op mode rest := by
  obtain ⟨hcode, hmode⟩ := opcodeByte_split op h
  have hop : (Coded.ofCode? op.code : Option Operation) = some op := Coded.ofCode?_code op
  simp only [decode, hcode, hmode]
  split
  · rename_i hnone
    rw [hop] at hnone
    cases hnone
  · rename_i found hfound
    rw [hop, Option.some.injEq] at hfound
    subst hfound
    rfl

theorem opcodeByte_zero (op : Operation) : opcodeByte op 0 = op.code := by
  simp [opcodeByte]

theorem Width.tag_lt (w : Width) : w.tag < 4 := by
  cases w <;> decide

theorem RegisterMode.code_lt (m : RegisterMode) : Coded.code m < 4 := by
  cases m <;> decide

/-! ## Immediates -/

namespace Decoded

/-- An immediate is read back from its bytes in canonical form, and what follows is left alone. -/
theorem withImmediate_bytesAt (build : Immediate → Instruction) (offset : Nat)
    (address : SymbolId → Nat) (v : Immediate) (rest : List UInt8) :
    withImmediate build offset v.width (v.bytesAt address ++ rest) =
      .ok ⟨build (v.canon address), offset + v.width.bytes, rest⟩ := by
  have hsplit : split? v.width.bytes (v.bytesAt address ++ rest) = some (v.bytesAt address, rest) :=
    split?_eq_some_iff.mpr ⟨v.length_bytesAt address, rfl⟩
  -- The number that stands in the bytes is the canonical one.
  have hvalue : Immediate.integer v.width (UInt64.ofNat (ofLeBytes (v.bytesAt address))) =
      v.canon address := by
    cases v with
    | integer width bits =>
      simp only [Immediate.bytesAt, Immediate.bytes, Immediate.canon, Immediate.width,
        ofLeBytes_leBytes]
    | float width bits =>
      simp only [Immediate.bytesAt, Immediate.bytes, Immediate.canon, Immediate.width,
        ofLeBytes_leBytes]
    | symbol id =>
      -- A word keeps its low 64 bits, so nothing is asked of the address.
      have hwrap : UInt64.ofNat (address id % Nat.pow 256 addressSize) =
          UInt64.ofNat (address id) := by
        apply UInt64.toNat_inj.mp
        rw [UInt64.toNat_ofNat', UInt64.toNat_ofNat']
        exact Nat.mod_mod _ _
      simp only [Immediate.bytesAt, Immediate.canon, Immediate.width, ofLeBytes_leBytes, hwrap]
  unfold withImmediate
  rw [hsplit]
  simp only [hvalue]

end Decoded

/-! ## Instructions -/

/-- An argument that the check lets through is read back. -/
theorem decode_argument (address : SymbolId → Nat) (op : Operation) (a : Argument)
    (rest : List UInt8) (hshape : op.shape = .argument)
    (hsource : ∀ source, a = .operand source → source.width? = none) :
    decode ((Instruction.argument op a).bytesAt address ++ rest) =
      .ok ⟨(Instruction.argument op a).canon address, (Instruction.argument op a).encodedSize,
        rest⟩ := by
  have hdecode : ∀ (mode : ArgumentMode) (bytes : List UInt8),
      decode (opcodeByte op (Coded.code mode) :: bytes) =
        Decoded.argument op (Coded.code mode) bytes := by
    intro mode bytes
    have hmode : Coded.code mode < 4 := by cases mode <;> decide
    rw [decode_opcodeByte op hmode, hshape]
  cases a with
  | implicit =>
    have h := hdecode .implicit rest
    simpa [Instruction.bytesAt, Instruction.payload?, Instruction.head, Instruction.canon,
      Instruction.encodedSize, Decoded.argument] using h
  | operand source =>
    have h := hdecode .explicitOperand (Coded.code source :: rest)
    simpa [Instruction.bytesAt, Instruction.payload?, Instruction.head, Instruction.canon,
      Instruction.encodedSize, Decoded.argument, hsource source rfl] using h
  | immediate v =>
    have himm := fun offset => Decoded.withImmediate_bytesAt
      (fun v => Instruction.argument op (.immediate v)) offset address v rest
    simp only [Instruction.bytesAt, Instruction.payload?, Instruction.head, Instruction.canon,
      Instruction.encodedSize]
    -- One-byte and eight-byte values have modes of their own, the others a descriptor.
    cases hw : v.width <;> simp only [hw] at himm ⊢
    · rw [List.singleton_append, List.cons_append, hdecode .byteImmediate]
      simpa [Decoded.argument] using himm 1
    · have hwidth : (Source.ofWidth .bits16).width? = some .bits16 := Source.width?_ofWidth _
      rw [List.cons_append, List.cons_append, List.singleton_append, List.cons_append,
        hdecode .explicitOperand]
      simpa [Decoded.argument, hwidth] using himm 2
    · have hwidth : (Source.ofWidth .bits32).width? = some .bits32 := Source.width?_ofWidth _
      rw [List.cons_append, List.cons_append, List.singleton_append, List.cons_append,
        hdecode .explicitOperand]
      simpa [Decoded.argument, hwidth] using himm 2
    · rw [List.singleton_append, List.cons_append, hdecode .wordImmediate]
      simpa [Decoded.argument] using himm 1

/-- A control transfer that the check lets through is read back. -/
theorem decode_word (address : SymbolId → Nat) (op : Operation) (target : Option Immediate)
    (rest : List UInt8) (hshape : op.shape = .word)
    (hwide : ∀ v, target = some v → v.isZero = false → v.width = .bits64) :
    decode ((Instruction.word op target).bytesAt address ++ rest) =
      .ok ⟨(Instruction.word op target).canon address, (Instruction.word op target).encodedSize,
        rest⟩ := by
  have hdecode : ∀ (mode : WordMode) (bytes : List UInt8),
      decode (opcodeByte op (Coded.code mode) :: bytes) =
        Decoded.word op (Coded.code mode) bytes := by
    intro mode bytes
    have hmode : Coded.code mode < 4 := by cases mode <;> decide
    rw [decode_opcodeByte op hmode, hshape]
  cases target with
  | none =>
    have h := hdecode .usesLeft rest
    simpa [Instruction.bytesAt, Instruction.payload?, Instruction.head, Instruction.canon,
      Instruction.encodedSize, Decoded.word] using h
  | some v =>
    cases hz : v.isZero with
    | true =>
      have h := hdecode .zeroImmediate rest
      simpa [Instruction.bytesAt, Instruction.payload?, Instruction.head, Instruction.canon,
        Instruction.encodedSize, Decoded.word, hz] using h
    | false =>
      -- A target that is written out is as wide as the decoder expects it.
      have hw : v.width = .bits64 := hwide v rfl hz
      have himm := Decoded.withImmediate_bytesAt (fun v => .word op (some v)) 1 address v rest
      rw [hw] at himm
      have h := hdecode .hasImmediate (v.bytesAt address ++ rest)
      simpa [Instruction.bytesAt, Instruction.payload?, Instruction.head, Instruction.canon,
        Instruction.encodedSize, Decoded.word, hz, hw, himm] using h

namespace Instruction

theorem shape_of_check {i : Instruction} (h : i.check? = none) : i.operation.shape = i.shape := by
  by_cases hshape : i.operation.shape = i.shape
  · exact hshape
  · simp [check?, hshape] at h

theorem source_of_check {op : Operation} {source : Source}
    (h : (argument op (.operand source)).check? = none) : source.width? = none := by
  have hshape : op.shape = .argument := shape_of_check h
  cases hw : source.width? with
  | none => rfl
  | some w => simp [check?, operation, shape, hshape, Source.isImmediate, hw] at h

theorem target_of_check {op : Operation} {v : Immediate}
    (h : (word op (some v)).check? = none) (hz : v.isZero = false) : v.width = .bits64 := by
  have hshape : op.shape = .word := shape_of_check h
  simpa [check?, operation, shape, hshape, hz] using h

end Instruction

/-- **Instructions are read back.** The bytes of an instruction that passes the check decode to its
canonical form, for any addresses of symbols and whatever follows. -/
theorem decode_bytesAt (address : SymbolId → Nat) (i : Instruction) (rest : List UInt8)
    (h : i.check? = none) :
    decode (i.bytesAt address ++ rest) = .ok ⟨i.canon address, i.encodedSize, rest⟩ := by
  have hshape := Instruction.shape_of_check h
  cases i with
  | nullary op =>
    change decode (op.code :: rest) = _
    rw [← opcodeByte_zero op, decode_opcodeByte op (by decide)]
    simp only [Instruction.operation, Instruction.shape] at hshape
    simp only [hshape, if_true]
    rfl
  | register op mode =>
    change decode (opcodeByte op (Coded.code mode) :: rest) = _
    rw [decode_opcodeByte op mode.code_lt]
    simp only [Instruction.operation, Instruction.shape] at hshape
    simp only [hshape, Coded.ofCode?_code]
    rfl
  | size op width =>
    change decode (opcodeByte op width.tag :: rest) = _
    rw [decode_opcodeByte op width.tag_lt]
    simp only [Instruction.operation, Instruction.shape] at hshape
    simp only [hshape, Width.ofTag_tag]
    rfl
  | argument op a =>
    apply decode_argument address op a rest hshape
    rintro source rfl
    exact Instruction.source_of_check h
  | word op target =>
    apply decode_word address op target rest hshape
    rintro v rfl hz
    exact Instruction.target_of_check h hz

/-! ## Exact instructions -/

/-- An integer without bits beyond its width. -/
def Immediate.IsExact : Immediate → Prop
  | integer width bits => bits.toNat < Nat.pow 256 width.bytes
  | _ => False

/-- Every immediate of the instruction is an integer without bits beyond its width, and no target is
a zero narrower than an address. -/
def Instruction.IsExact : Instruction → Prop
  | argument _ (.immediate v) => v.IsExact
  | word _ (some target) => target.IsExact ∧ ¬ (target.isZero ∧ target.width ≠ .bits64)
  | _ => True

theorem Immediate.canon_of_isExact (address : SymbolId → Nat) {v : Immediate} (h : v.IsExact) :
    v.canon address = v := by
  cases v with
  | integer width bits =>
    have hlt : bits.toNat < Nat.pow 256 width.bytes := h
    simp only [Immediate.canon, Nat.mod_eq_of_lt hlt, UInt64.ofNat_toNat]
  | float width bits => exact h.elim
  | symbol id => exact h.elim

/-- The only exact target of zero is the full word. -/
theorem eq_zero_of_isExact {op : Operation} {v : Immediate}
    (h : (Instruction.word op (some v)).IsExact) (hz : v.isZero) : v = .integer .bits64 0 := by
  obtain ⟨hv, hnarrow⟩ : v.IsExact ∧ ¬ (v.isZero ∧ v.width ≠ .bits64) := h
  have hwidth : v.width = .bits64 := by simpa [hz] using hnarrow
  cases v with
  | integer width bits =>
    have hbits : bits = 0 := by simpa [Immediate.isZero] using hz
    have hw : width = .bits64 := hwidth
    rw [hbits, hw]
  | float width bits => exact hv.elim
  | symbol id => exact hv.elim

theorem Instruction.canon_of_isExact (address : SymbolId → Nat) {i : Instruction}
    (h : i.IsExact) : i.canon address = i := by
  cases i with
  | nullary op => rfl
  | register op mode => rfl
  | size op width => rfl
  | argument op a =>
    cases a with
    | implicit => rfl
    | operand source => rfl
    | immediate v =>
      have hv : v.IsExact := h
      simp only [canon, Immediate.canon_of_isExact address hv]
  | word op target =>
    cases target with
    | none => rfl
    | some v =>
      cases hz : v.isZero with
      | false => simp [canon, hz, Immediate.canon_of_isExact address h.1]
      | true =>
        rw [eq_zero_of_isExact h hz]
        rfl

/-- A number in two's complement of its width has no bits beyond it. -/
theorem Immediate.isExact_ofInt (width : Width) (value : Int) : (ofInt width value).IsExact := by
  have hpos : (0 : Int) < Nat.pow 256 width.bytes := by cases width <;> decide
  have hword : Nat.pow 256 width.bytes ≤ 2 ^ 64 := by cases width <;> decide
  have hnonneg := Int.emod_nonneg value (Int.ne_of_gt hpos)
  have hlt := Int.emod_lt_of_pos value hpos
  change (UInt64.ofNat (value % Nat.pow 256 width.bytes).toNat).toNat < Nat.pow 256 width.bytes
  rw [UInt64.toNat_ofNat', Nat.mod_eq_of_lt (by omega)]
  omega

/-! ## The encoder -/

theorem Instruction.encode_eq_ok {i : Instruction} {code : Code} {result : Code × Option Fixup}
    (h : i.encode code = .ok result) : i.check? = none ∧ result.1 = code ++ i.bytes := by
  unfold encode at h
  split at h
  · cases h
  · rename_i hcheck
    cases h
    exact ⟨hcheck, rfl⟩

/-- **Decoding undoes encoding.** What the encoder appends to code depends on nothing that follows:
it decodes to the canonical form of the instruction, with all addresses zero, and leaves the rest
alone. An exact instruction comes back as it was; all arguments made from integers are exact. -/
theorem decode_encode (i : Instruction) (code : Code) (result : Code × Option Fixup)
    (h : i.encode code = .ok result) :
    ∃ written, result.1.toList = code.toList ++ written ∧
      (∀ rest, decode (written ++ rest) = .ok ⟨i.canon fun _ => 0, written.length, rest⟩) ∧
      (i.IsExact → ∀ rest, decode (written ++ rest) = .ok ⟨i, written.length, rest⟩) ∧
      ∀ op width value, i = .argument op (.immediate (.ofInt width value)) → i.IsExact := by
  obtain ⟨hcheck, hcode⟩ := Instruction.encode_eq_ok h
  have hdecode : ∀ rest,
      decode (i.bytes ++ rest) = .ok ⟨i.canon fun _ => 0, i.bytes.length, rest⟩ := by
    intro rest
    rw [← Instruction.bytesAt_zero, decode_bytesAt _ i rest hcheck, Instruction.length_bytesAt]
  refine ⟨i.bytes, by simp [hcode], hdecode, ?_, ?_⟩
  · intro hexact rest
    rw [hdecode rest, Instruction.canon_of_isExact _ hexact]
  · rintro op width value rfl
    exact Immediate.isExact_ofInt width value

/-- A number that does not fit its two bytes is cut, and the bytes that follow are left alone. -/
theorem decode_encode_cut :
    Instruction.encode (.argument .add (.immediate (.integer .bits16 0x12345))) #[0xFF] =
      .ok (#[0xFF, 0xC4, 9, 0x45, 0x23], none) ∧
    ∀ rest, decode ([0xC4, 9, 0x45, 0x23] ++ rest) =
      .ok ⟨.argument .add (.immediate (.integer .bits16 0x2345)), 4, rest⟩ := by
  have hencode : Instruction.encode (.argument .add (.immediate (.integer .bits16 0x12345)))
      #[0xFF] = .ok (#[0xFF, 0xC4, 9, 0x45, 0x23], none) := rfl
  obtain ⟨written, hwritten, hdecode, -⟩ := decode_encode _ _ _ hencode
  obtain rfl : written = [0xC4, 9, 0x45, 0x23] := by simpa using hwritten.symm
  exact ⟨hencode, hdecode⟩

end ImageLinker
