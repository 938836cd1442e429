import ImageLinker.Bytes
import ImageLinker.BuildError
import ImageLinker.Instruction.Basic

/-!
# Decoding

Reading an instruction off the front of a run of bytes. Immediates come back as integers, since
the bytes do not say whether a value was an integer, a float or the address of a symbol; a target
is always read as eight bytes.

A failure is either that the bytes end too early, with the offset of the read that failed, or that
no instruction starts like this. `decode_length` ties the length that is reported to the bytes that
were taken; `disassemble` reads instruction after instruction until nothing is left.
-/

namespace ImageLinker

/-- Why no instruction could be read. -/
inductive DecodeError where
  /-- The bytes end within the read that starts at this offset. -/
  | truncated (offset : Nat)
  /-- No instruction starts with these bytes. -/
  | malformed
deriving DecidableEq, Repr

/-- An instruction together with the number of bytes it took and the bytes behind it. -/
structure Decoded where
  instruction : Instruction
  length : Nat
  rest : List UInt8
deriving DecidableEq, Repr

namespace Decoded

/-- Reads an immediate of the given width, `offset` bytes into the instruction. -/
def withImmediate (build : Immediate → Instruction) (offset : Nat) (width : Width)
    (bytes : List UInt8) : Except DecodeError Decoded :=
  match split? width.bytes bytes with
  | none => .error (.truncated offset)
  | some (front, rest) =>
    .ok ⟨build (.integer width (UInt64.ofNat (ofLeBytes front))), offset + width.bytes, rest⟩

/-- Reads what follows the opcode byte of an operation with an argument. -/
def argument (op : Operation) (mode : UInt8) (bytes : List UInt8) : Except DecodeError Decoded :=
  let immediate v := Instruction.argument op (.immediate v)
  match (Coded.ofCode? mode : Option ArgumentMode) with
  | none => .error .malformed
  | some .implicit => .ok ⟨.argument op .implicit, 1, bytes⟩
  | some .byteImmediate => withImmediate immediate 1 .bits8 bytes
  | some .wordImmediate => withImmediate immediate 1 .bits64 bytes
  | some .explicitOperand =>
    match bytes with
    | [] => .error (.truncated 1)
    | descriptor :: rest =>
      match (Coded.ofCode? descriptor : Option Source) with
      | none => .error .malformed
      | some source =>
        match source.width? with
        | none => .ok ⟨.argument op (.operand source), 2, rest⟩
        | some .bits16 => withImmediate immediate 2 .bits16 rest
        | some .bits32 => withImmediate immediate 2 .bits32 rest
        -- The other widths have modes of their own.
        | some _ => .error .malformed

/-- Reads what follows the opcode byte of a control transfer. -/
def word (op : Operation) (mode : UInt8) (bytes : List UInt8) : Except DecodeError Decoded :=
  match (Coded.ofCode? mode : Option WordMode) with
  | none => .error .malformed
  | some .usesLeft => .ok ⟨.word op none, 1, bytes⟩
  | some .zeroImmediate => .ok ⟨.word op (some (.integer .bits64 0)), 1, bytes⟩
  | some .hasImmediate => withImmediate (fun v => .word op (some v)) 1 .bits64 bytes

end Decoded

/-- Reads one instruction off the front. -/
def decode : List UInt8 → Except DecodeError Decoded
  | [] => .error (.truncated 0)
  | head :: rest =>
    let mode := head >>> modeShift
    match (Coded.ofCode? (head &&& codeMask) : Option Operation) with
    | none => .error .malformed
    | some op =>
      match op.shape with
      | .nullary => if mode = 0 then .ok ⟨.nullary op, 1, rest⟩ else .error .malformed
      | .register =>
        match (Coded.ofCode? mode : Option RegisterMode) with
        | none => .error .malformed
        | some register => .ok ⟨.register op register, 1, rest⟩
      | .size => .ok ⟨.size op (Width.ofTag mode), 1, rest⟩
      | .word => Decoded.word op mode rest
      | .argument => Decoded.argument op mode rest

/-! ## Lengths -/

namespace Decoded

/-- What was read, and `offset` bytes before it, are accounted for. -/
theorem withImmediate_length {build : Immediate → Instruction} {offset : Nat} {width : Width}
    {bytes : List UInt8} {d : Decoded} (h : withImmediate build offset width bytes = .ok d) :
    offset ≤ d.length ∧ d.length + d.rest.length = offset + bytes.length := by
  unfold withImmediate at h
  split at h
  · cases h
  · rename_i front rest hs
    obtain ⟨hlen, rfl⟩ := split?_eq_some_iff.mp hs
    cases h
    simp only [List.length_append]
    omega

theorem argument_length {op : Operation} {mode : UInt8} {bytes : List UInt8} {d : Decoded}
    (h : argument op mode bytes = .ok d) :
    1 ≤ d.length ∧ d.length + d.rest.length = 1 + bytes.length := by
  unfold argument at h
  split at h
  · cases h
  · cases h; simp
  · exact withImmediate_length h
  · exact withImmediate_length h
  · split at h
    · cases h
    · rename_i descriptor rest
      rw [List.length_cons]
      split at h
      · cases h
      · split at h
        · cases h; simp only []; omega
        · have := withImmediate_length h; omega
        · have := withImmediate_length h; omega
        · cases h

theorem word_length {op : Operation} {mode : UInt8} {bytes : List UInt8} {d : Decoded}
    (h : word op mode bytes = .ok d) :
    1 ≤ d.length ∧ d.length + d.rest.length = 1 + bytes.length := by
  unfold word at h
  split at h
  · cases h
  · cases h; simp
  · cases h; simp
  · exact withImmediate_length h

end Decoded

/-- At least one byte is taken, and the reported length and the bytes left over make up the
input. -/
theorem decode_length {bytes : List UInt8} {d : Decoded} (h : decode bytes = .ok d) :
    1 ≤ d.length ∧ d.length + d.rest.length = bytes.length := by
  cases bytes with
  | nil => cases h
  | cons head rest =>
    rw [List.length_cons, Nat.add_comm rest.length]
    simp only [decode] at h
    split at h
    · cases h
    · split at h
      · split at h
        · cases h; simp
        · cases h
      · split at h
        · cases h
        · cases h; simp
      · cases h; simp
      · exact Decoded.word_length h
      · exact Decoded.argument_length h

theorem decode_rest_lt {bytes : List UInt8} {d : Decoded} (h : decode bytes = .ok d) :
    d.rest.length < bytes.length := by
  have := decode_length h
  omega

/-! ## Whole images -/

/-- Reads instructions until nothing is left; `address` is where the bytes start. -/
def disassembleFrom (address : Nat) (bytes : List UInt8) (read : Array (Nat × Instruction)) :
    Except BuildError (Array (Nat × Instruction)) :=
  if bytes.isEmpty then
    .ok read
  else
    match _ : decode bytes with
    | .error _ => .error (.malformedInstruction address)
    | .ok d => disassembleFrom (address + d.length) d.rest (read.push (address, d.instruction))
termination_by bytes.length
decreasing_by exact decode_rest_lt (by assumption)

/-- Reads a whole image, pairing every instruction with its address. -/
def disassemble (code : Code) : Except BuildError (Array (Nat × Instruction)) :=
  disassembleFrom 0 code.toList #[]

end ImageLinker
