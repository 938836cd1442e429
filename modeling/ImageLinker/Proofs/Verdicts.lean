import ImageLinker.Proofs.Canonicity
import Mathlib.Logic.ExistsUnique

/-!
# The verdict on a run of bytes

Bytes may arrive in pieces, and the decoder is asked about what is there. Its verdict does not have
to be taken back when more comes: an instruction that was read stays the one that is read, bytes
that no instruction starts with stay refused, and where it says that bytes are missing, there are
bytes that complete an instruction.

The decoder is made of few kinds of readers: some need no byte, some read a value of fixed width,
and some read a byte that tells how to go on. That verdicts last is shown for each kind.

* `Stable`: the verdicts of a reader last; `Stable.next` is the step from what follows a byte to the
  byte itself.
* `decode_stable`: the decoder is made of such readers.
* `IsEncoding.eq_of_start`, `IsEncoding.truncated_of_start`: no encoding starts another one, and
  what stops short of its end is reported as such.
* `decode_verdict`: all of this in terms of the decoder and the encoder.
-/

namespace ImageLinker

/-- A reader whose verdict on bytes says something about all that starts with them. -/
structure Stable (read : List UInt8 → Except DecodeError Decoded) : Prop where
  complete : ∀ {bytes d}, read bytes = .ok d →
    ∀ more, read (bytes ++ more) = .ok { d with rest := d.rest ++ more }
  truncated : ∀ {bytes offset}, read bytes = .error (.truncated offset) →
    ∃ more d, more ≠ [] ∧ read (bytes ++ more) = .ok d ∧ d.rest = []
  malformed : ∀ {bytes}, read bytes = .error .malformed →
    ∀ more, read (bytes ++ more) = .error .malformed

namespace Stable

/-! ## Readers that need no byte -/

theorem done (i : Instruction) (length : Nat) : Stable fun bytes => .ok ⟨i, length, bytes⟩ where
  complete h more := by cases h; rfl
  truncated h := nomatch h
  malformed h := nomatch h

theorem refused : Stable fun _ => .error .malformed where
  complete h := nomatch h
  truncated h := nomatch h
  malformed _ _ := rfl

/-! ## Values of fixed width -/

/-- A value can be read as soon as all of its bytes are there, and any bytes make one. -/
theorem withImmediate (build : Immediate → Instruction) (offset : Nat) (width : Width) :
    Stable (Decoded.withImmediate build offset width) where
  complete := by
    intro bytes d h more
    unfold Decoded.withImmediate at h ⊢
    split at h
    · cases h
    · rename_i front rest hsplit
      obtain ⟨hlength, rfl⟩ := split?_eq_some_iff.mp hsplit
      have hmore : split? width.bytes (front ++ rest ++ more) = some (front, rest ++ more) :=
        split?_eq_some_iff.mpr ⟨hlength, List.append_assoc _ _ _⟩
      cases h
      rw [hmore]
  truncated := by
    intro bytes start h
    unfold Decoded.withImmediate at h ⊢
    split at h
    · rename_i hsplit
      have hshort : bytes.length < width.bytes := split?_eq_none_iff.mp hsplit
      -- As many zeros as bytes are missing.
      have hfull : (bytes ++ List.replicate (width.bytes - bytes.length) 0).length =
          width.bytes := by
        rw [List.length_append, List.length_replicate]
        omega
      have hsplit := split?_eq_some_iff.mpr ⟨hfull, (List.append_nil _).symm⟩
      refine ⟨List.replicate (width.bytes - bytes.length) 0, _, ?_, by rw [hsplit], rfl⟩
      rw [ne_eq, List.replicate_eq_nil_iff]
      omega
    · cases h
  malformed := by
    intro bytes h
    unfold Decoded.withImmediate at h
    split at h <;> cases h

/-! ## A byte that tells how to go on -/

/-- If what follows a byte is read in a stable way, whatever the byte is, then so is the byte with
what follows, as long as the reader can come to an end at all. -/
theorem next {read : List UInt8 → Except DecodeError Decoded} {offset : Nat}
    (hnil : read [] = .error (.truncated offset))
    (hgo : ∀ byte, Stable fun bytes => read (byte :: bytes))
    (hend : ∃ bytes d, read bytes = .ok d ∧ d.rest = []) : Stable read where
  complete := by
    intro bytes d h
    cases bytes with
    | nil => rw [hnil] at h; cases h
    | cons byte bytes => exact (hgo byte).complete h
  truncated := by
    intro bytes start h
    cases bytes with
    | nil =>
      obtain ⟨bytes, d, hd, hrest⟩ := hend
      refine ⟨bytes, d, ?_, hd, hrest⟩
      rintro rfl
      rw [hnil] at hd
      cases hd
    | cons byte bytes => exact (hgo byte).truncated h
  malformed := by
    intro bytes h
    cases bytes with
    | nil => rw [hnil] at h; cases h
    | cons byte bytes => exact (hgo byte).malformed h

/-! ## Operands -/

/-- The descriptor is judged before anything behind it is read. -/
theorem argument (op : Operation) (mode : UInt8) : Stable (Decoded.argument op mode) := by
  unfold Decoded.argument
  cases (Coded.ofCode? mode : Option ArgumentMode) with
  | none => exact refused
  | some m =>
    cases m with
    | implicit => exact done _ _
    | byteImmediate => exact withImmediate _ _ _
    | wordImmediate => exact withImmediate _ _ _
    | explicitOperand =>
      refine next rfl (fun descriptor => ?_) ⟨[Coded.code Source.r8], _, rfl, rfl⟩
      dsimp only
      cases (Coded.ofCode? descriptor : Option Source) with
      | none => exact refused
      | some source =>
        dsimp only
        cases source.width? with
        | none => exact done _ _
        | some w =>
          cases w with
          | bits8 => exact refused
          | bits16 => exact withImmediate _ _ _
          | bits32 => exact withImmediate _ _ _
          | bits64 => exact refused

theorem word (op : Operation) (mode : UInt8) : Stable (Decoded.word op mode) := by
  unfold Decoded.word
  cases (Coded.ofCode? mode : Option WordMode) with
  | none => exact refused
  | some m =>
    cases m with
    | usesLeft => exact done _ _
    | zeroImmediate => exact done _ _
    | hasImmediate => exact withImmediate _ _ _

end Stable

/-! ## Instructions -/

/-- **Verdicts last.** Operation and mode are judged before anything behind their byte is read. -/
theorem decode_stable : Stable decode := by
  refine Stable.next rfl (fun head => ?_) ⟨[Operation.stop.code], _, rfl, rfl⟩
  simp only [decode]
  cases (Coded.ofCode? (head &&& codeMask) : Option Operation) with
  | none => exact .refused
  | some op =>
    simp only []
    cases op.shape with
    | argument => exact .argument op _
    | word => exact .word op _
    | size => exact .done _ _
    | register =>
      cases (Coded.ofCode? (head >>> modeShift) : Option RegisterMode) with
      | none => exact .refused
      | some register => exact .done _ _
    | nullary =>
      by_cases hmode : head >>> modeShift = 0
      · simpa only [hmode, if_true] using .done _ _
      · simpa only [hmode, if_false] using .refused

/-- The bytes are those of one instruction, from its first to its last. -/
def IsEncoding (bytes : List UInt8) : Prop :=
  ∃ i length, decode bytes = .ok ⟨i, length, []⟩

namespace IsEncoding

variable {e e' : List UInt8}

/-- The encoder writes encodings. -/
theorem of_encode {i : Instruction} {code : Code} {result : Code × Option Fixup}
    (h : i.encode code = .ok result) :
    ∃ e, result.1.toList = code.toList ++ e ∧ IsEncoding e := by
  obtain ⟨hcheck, hcode⟩ := Instruction.encode_eq_ok h
  have hdecode := decode_bytesAt (fun _ => 0) i [] hcheck
  rw [Instruction.bytesAt_zero, List.append_nil] at hdecode
  exact ⟨i.bytes, by simp [hcode], _, _, hdecode⟩

/-- What goes on behind an encoding is left over, so the longer one of the two leaves something. -/
theorem eq_of_start (h : IsEncoding e) (h' : IsEncoding e') (hstart : e <+: e') : e = e' := by
  obtain ⟨i, length, hdecode⟩ := h
  obtain ⟨i', length', hdecode'⟩ := h'
  obtain ⟨more, rfl⟩ := hstart
  rw [decode_stable.complete hdecode more, Except.ok.injEq] at hdecode'
  have hmore : more = [] := congrArg Decoded.rest hdecode'
  rw [hmore, List.append_nil]

theorem truncated_of_start (h : IsEncoding e) (hstart : e' <+: e) (hne : e' ≠ e) :
    ∃ offset, decode e' = .error (.truncated offset) := by
  obtain ⟨i, length, hdecode⟩ := h
  obtain ⟨more, rfl⟩ := hstart
  cases hverdict : decode e' with
  | ok d =>
    -- An instruction in front would leave the rest over.
    rw [decode_stable.complete hverdict more, Except.ok.injEq] at hdecode
    have hrest : d.rest ++ more = [] := congrArg Decoded.rest hdecode
    rw [(List.append_eq_nil_iff.mp hrest).2, List.append_nil] at hne
    exact absurd rfl hne
  | error error =>
    cases error with
    | truncated offset => exact ⟨offset, rfl⟩
    | malformed =>
      rw [decode_stable.malformed hverdict more] at hdecode
      cases hdecode

end IsEncoding

/-! ## Verdicts -/

/-- What the decoder can find. -/
inductive Verdict where
  | complete
  | truncated
  | malformed
deriving DecidableEq, Repr

/-- The decoder finds this in the bytes, and it stands by it whatever follows: what follows is left
over, or it can complete an instruction, or it is of no use. -/
def Verdict.Holds (bytes : List UInt8) : Verdict → Prop
  | complete => ∃ d, decode bytes = .ok d ∧
    ∀ more, decode (bytes ++ more) = .ok { d with rest := d.rest ++ more }
  | truncated => (∃ offset, decode bytes = .error (.truncated offset)) ∧
    ∃ more d, more ≠ [] ∧ decode (bytes ++ more) = .ok d ∧ d.rest = []
  | malformed => decode bytes = .error .malformed ∧
    ∀ more, decode (bytes ++ more) = .error .malformed

/-- The verdict that an answer of the decoder stands for. -/
def Verdict.of : Except DecodeError Decoded → Verdict
  | .ok _ => complete
  | .error (.truncated _) => truncated
  | .error .malformed => malformed

theorem Verdict.holds_of (bytes : List UInt8) : (Verdict.of (decode bytes)).Holds bytes := by
  cases hdecode : decode bytes with
  | ok d => exact ⟨d, hdecode, decode_stable.complete hdecode⟩
  | error error =>
    cases error with
    | truncated offset => exact ⟨⟨offset, hdecode⟩, decode_stable.truncated hdecode⟩
    | malformed => exact ⟨hdecode, decode_stable.malformed hdecode⟩

theorem Verdict.eq_of_holds {bytes : List UInt8} {verdict : Verdict} (h : verdict.Holds bytes) :
    verdict = .of (decode bytes) := by
  cases verdict with
  | complete =>
    obtain ⟨d, hdecode, -⟩ := h
    rw [hdecode]
    rfl
  | truncated =>
    obtain ⟨⟨offset, hdecode⟩, -⟩ := h
    rw [hdecode]
    rfl
  | malformed =>
    rw [h.1]
    rfl

/-- **The decoder never takes a verdict back.** Of any bytes exactly one of three holds: an
instruction is read, and the same one whatever follows; bytes are missing, and some complete an
instruction; or no instruction starts like this, whatever follows. Hence no encoding starts another
one, neither those that the encoder writes nor any other that is read, and of whatever stops short
of the end of an encoding the decoder says that bytes are missing. -/
theorem decode_verdict :
    (∀ bytes, ∃! verdict : Verdict, verdict.Holds bytes) ∧
      (∀ (i : Instruction) code result, i.encode code = .ok result →
        ∃ e, result.1.toList = code.toList ++ e ∧ IsEncoding e) ∧
      (∀ e e', IsEncoding e → IsEncoding e' → e <+: e' → e = e') ∧
      ∀ e front, IsEncoding e → front <+: e → front ≠ e →
        ∃ offset, decode front = .error (.truncated offset) := by
  refine ⟨?_, ?_, ?_, ?_⟩
  · intro bytes
    exact ⟨.of (decode bytes), Verdict.holds_of bytes, fun _ h => Verdict.eq_of_holds h⟩
  · intro i code result h
    exact IsEncoding.of_encode h
  · intro e e' h h' hstart
    exact h.eq_of_start h' hstart
  · intro e front h hstart hne
    exact h.truncated_of_start hstart hne

/-- A jump to 300 takes nine bytes, and without the last one it is truncated. A one-byte value has a
mode of its own, so a descriptor that announces one is refused, whatever follows. -/
theorem decode_verdict_jump :
    Instruction.encode (.word .jmp (some (.integer .bits64 300))) #[0xFF] =
      .ok (#[0xFF, 0x6B, 44, 1, 0, 0, 0, 0, 0, 0], none) ∧
    IsEncoding [0x6B, 44, 1, 0, 0, 0, 0, 0, 0] ∧
    (∃ offset, decode [0x6B, 44, 1, 0, 0, 0, 0, 0] = .error (.truncated offset)) ∧
    (∀ e, IsEncoding e → e <+: [0x6B, 44, 1, 0, 0, 0, 0, 0, 0] →
      e = [0x6B, 44, 1, 0, 0, 0, 0, 0, 0]) ∧
    Verdict.malformed.Holds [0xC4, 0x08] := by
  have hencode : Instruction.encode (.word .jmp (some (.integer .bits64 300))) #[0xFF] =
      .ok (#[0xFF, 0x6B, 44, 1, 0, 0, 0, 0, 0, 0], none) := rfl
  obtain ⟨hverdict, hwritten, hfree, hshort⟩ := decode_verdict
  obtain ⟨e, he, hencoding⟩ := hwritten _ _ _ hencode
  obtain rfl : e = [0x6B, 44, 1, 0, 0, 0, 0, 0, 0] := by simpa using he.symm
  refine ⟨hencode, hencoding, hshort _ _ hencoding ⟨[0], rfl⟩ (by decide), ?_, ?_⟩
  · intro e h hstart
    exact hfree e _ h hencoding hstart
  · obtain ⟨verdict, hholds, -⟩ := hverdict [0xC4, 0x08]
    obtain rfl : verdict = .malformed := Verdict.eq_of_holds hholds
    exact hholds

end ImageLinker
