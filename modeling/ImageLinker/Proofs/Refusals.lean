import ImageLinker.Proofs.Canonicity
import ImageLinker.Proofs.Session

/-!
# What the encoder refuses

The form of an instruction need not fit its operation, a descriptor may announce a value that is not
there, and a target may be narrower than an address. All of these can be written, and then they are
read as something else or not at all. The encoder refuses exactly those instructions that would not
be read back, and of several reasons it gives the first.

* `Instruction.Flaw`: what can be wrong with an instruction, each reason by itself.
* `Instruction.check?_eq_some_iff`: the check gives the first of these reasons.
* `Instruction.check?_of_canon`: an instruction whose canonical form was read has passed the check.
* `exec_of_refused`: an instruction that is refused leaves nothing behind.
* `encode_refusals`: all of this in terms of encoder, writer and decoder.
-/

namespace ImageLinker

/-! ## Reasons -/

theorem Width.bytes_lt_iff {w : Width} : w.bytes < addressSize ↔ w ≠ .bits64 := by
  cases w <;> decide

theorem Source.isImmediate_iff {source : Source} :
    source.isImmediate ↔ ∃ w, source = .ofWidth w := by
  constructor
  · intro h
    obtain ⟨w, hw⟩ := Option.isSome_iff_exists.mp h
    refine ⟨w, ?_⟩
    cases source <;> cases hw <;> rfl
  · rintro ⟨w, rfl⟩
    show (Source.ofWidth w).width?.isSome
    rw [Source.width?_ofWidth]
    rfl

/-- The order in which the flaws of an instruction are reported. -/
def BuildError.precedence : BuildError → Nat
  | shapeMismatch .. => 0
  | immediateOperand .. => 1
  | narrowWordTarget .. => 2
  | _ => 3

namespace Instruction

/-- Something that is wrong with an instruction, and the error that tells of it. -/
inductive Flaw : Instruction → BuildError → Prop where
  /-- The form does not fit the operation. -/
  | shape {i : Instruction} (h : i.operation.shape ≠ i.shape) :
    Flaw i (.shapeMismatch i.operation i.operation.shape i.shape)
  /-- The operand is a descriptor that announces a value. -/
  | descriptor (op : Operation) (w : Width) :
    Flaw (argument op (.operand (.ofWidth w))) (.immediateOperand op (.ofWidth w))
  /-- The target has to be written out and is too short for an address. -/
  | target (op : Operation) {v : Immediate} (hzero : v.isZero = false)
    (hnarrow : v.width.bytes < addressSize) :
    Flaw (word op (some v)) (.narrowWordTarget op v.width)

theorem check?_of_shape_ne {i : Instruction} (h : i.operation.shape ≠ i.shape) :
    i.check? = some (.shapeMismatch i.operation i.operation.shape i.shape) := by
  unfold check?
  exact if_pos h

/-- Where the form fits, there is at most one other flaw, and the check finds it. -/
theorem check?_eq_some_of_shape {i : Instruction} (h : i.operation.shape = i.shape)
    {e : BuildError} : i.check? = some e ↔ i.Flaw e := by
  constructor
  · intro hcheck
    unfold check? at hcheck
    rw [if_neg (not_not.mpr h)] at hcheck
    split at hcheck
    · rename_i op source
      split at hcheck
      · rename_i himmediate
        obtain ⟨w, rfl⟩ := Source.isImmediate_iff.mp himmediate
        cases hcheck
        exact .descriptor op w
      · cases hcheck
    · rename_i op v
      split at hcheck
      · rename_i hv
        cases hcheck
        exact .target op (by simpa using hv.1) (Width.bytes_lt_iff.mpr hv.2)
      · cases hcheck
    · cases hcheck
  · intro hflaw
    unfold check?
    rw [if_neg (not_not.mpr h)]
    cases hflaw with
    | shape hne => exact absurd h hne
    | descriptor op w => exact if_pos (Source.isImmediate_iff.mpr ⟨w, rfl⟩)
    | target op hzero hnarrow =>
      exact if_pos ⟨by simpa using hzero, Width.bytes_lt_iff.mp hnarrow⟩

/-- The check reports the first flaw. -/
theorem check?_eq_some_iff {i : Instruction} {e : BuildError} :
    i.check? = some e ↔ i.Flaw e ∧ ∀ e', i.Flaw e' → e.precedence ≤ e'.precedence := by
  by_cases hshape : i.operation.shape = i.shape
  · rw [check?_eq_some_of_shape hshape, iff_self_and]
    -- No two flaws but a wrong form go together, so the other one is the same.
    intro hflaw e' hflaw'
    have hcheck := (check?_eq_some_of_shape hshape).mpr hflaw
    rw [(check?_eq_some_of_shape hshape).mpr hflaw', Option.some.injEq] at hcheck
    exact Nat.le_of_eq (by rw [hcheck])
  · rw [check?_of_shape_ne hshape, Option.some.injEq]
    constructor
    · rintro rfl
      exact ⟨.shape hshape, fun e' _ => Nat.zero_le _⟩
    · rintro ⟨hflaw, hfirst⟩
      have hle : e.precedence ≤ 0 := hfirst _ (.shape hshape)
      cases hflaw with
      | shape => rfl
      | descriptor => exact absurd hle (Nat.not_succ_le_zero 0)
      | target => exact absurd hle (Nat.not_succ_le_zero 1)

/-! ## Reading back -/

/-- **Nothing else is read back.** If the canonical form of an instruction passes the check and is
exact, as all instructions are that were read, then the instruction itself passes the check. A
narrow target may lose all of its bits in the canonical form; but a narrow zero is not exact. -/
theorem check?_of_canon {address : SymbolId → Nat} {i : Instruction}
    (hcheck : (i.canon address).check? = none) (hexact : (i.canon address).IsExact) :
    i.check? = none := by
  cases i with
  | nullary op => exact hcheck
  | register op mode => exact hcheck
  | size op width => exact hcheck
  | argument op a =>
    cases a with
    | implicit => exact hcheck
    | operand source => exact hcheck
    | immediate v =>
      have hshape : op.shape = .argument := shape_of_check hcheck
      simp [check?, operation, shape, hshape]
  | word op target =>
    cases target with
    | none => exact hcheck
    | some v =>
      have hshape : op.shape = .word := shape_of_check hcheck
      cases hz : v.isZero with
      | true => simp [check?, operation, shape, hshape, hz]
      | false =>
        have hcanon : (word op (some v)).canon address = word op (some (v.canon address)) := by
          simp [canon, hz]
        rw [hcanon] at hcheck hexact
        have hwide : (v.canon address).width = .bits64 := by
          cases hzero : (v.canon address).isZero with
          | true => rw [eq_zero_of_isExact hexact hzero]; rfl
          | false => exact target_of_check hcheck hzero
        rw [Immediate.width_canon] at hwide
        simp [check?, operation, shape, hshape, hwide]

/-- What passes the check is what is read back from its bytes. -/
theorem check?_eq_none_iff {i : Instruction} :
    i.check? = none ↔ ∃ length, decode i.bytes = .ok ⟨i.canon fun _ => 0, length, []⟩ := by
  constructor
  · intro hcheck
    have hdecode := decode_bytesAt (fun _ => 0) i [] hcheck
    rw [bytesAt_zero, List.append_nil] at hdecode
    exact ⟨i.encodedSize, hdecode⟩
  · rintro ⟨length, hdecode⟩
    have haccounts := decode_eq_ok hdecode
    exact check?_of_canon haccounts.checked haccounts.exact

theorem encode_eq_error_iff {i : Instruction} {code : Code} {e : BuildError} :
    i.encode code = .error e ↔ i.check? = some e := by
  unfold encode
  cases i.check? <;> simp

theorem exists_encode_iff {i : Instruction} {code : Code} :
    (∃ result, i.encode code = .ok result) ↔ i.check? = none := by
  unfold encode
  cases i.check? <;> simp

end Instruction

/-! ## Buffers -/

/-- The command encodes the instruction onto code that the workspace holds. -/
inductive Workspace.EncodesOnto (w : Workspace) (i : Instruction) (code : Code) :
    Command → Prop where
  | global {builder name : String} {b : Builder} {g : Global}
    (hb : w.builders.get? builder = some b) (hg : b.global? name = some g) (hcode : g.code = code) :
    EncodesOnto w i code (.encodeGlobal builder name i)
  | block {function ref : String} {f : Function} {r : BlockRef} {block : Block}
    (hf : w.functions.get? function = some f) (hr : w.refs.get? ref = some r)
    (hblock : f.writableBlock r = .ok block) (hcode : block.code = code) :
    EncodesOnto w i code (.emit function ref i 1)

/-- A refused instruction leaves the code as it was, and all else. -/
theorem exec_of_refused {w : Workspace} {i : Instruction} {code : Code} {c : Command}
    {e : BuildError} (h : w.EncodesOnto i code c) (hrefused : i.encode code = .error e) :
    c.step.exec w = (.error (.error e), w) := by
  cases h with
  | global hb hg hcode =>
    rw [← hcode] at hrefused
    simp [Command.step, Workspace.encodeGlobal, hb, hg, hrefused, Except.mapError]
  | block hf hr hblock hcode =>
    have hcheck := Instruction.encode_eq_error_iff.mp hrefused
    simp [Command.step, Workspace.emit, Workspace.writeBlock, Workspace.repeated, Block.emit, hf,
      hr, hblock, hcheck, Except.mapError]

/-- **The encoder refuses what cannot be read back, and nothing else.** Writing an instruction
appends bytes that depend on the instruction alone. The encoder accepts it if and only if these
bytes are read as its canonical form, to their end, and then it writes them. Otherwise the error
tells the first flaw of the instruction, and the code is left as it was, be it that of a block or of
a global. -/
theorem encode_refusals (i : Instruction) :
    ∃ written, ∀ code : Code, (i.write code).1.toList = code.toList ++ written ∧
      ((∃ result, i.encode code = .ok result) ↔
        ∃ length, decode written = .ok ⟨i.canon fun _ => 0, length, []⟩) ∧
      (∀ result, i.encode code = .ok result → result = i.write code) ∧
      (∀ e, i.encode code = .error e ↔
        i.Flaw e ∧ ∀ e', i.Flaw e' → e.precedence ≤ e'.precedence) ∧
      ∀ (w : Workspace) (c : Command) e, w.EncodesOnto i code c → i.encode code = .error e →
        c.step.exec w = (.error (.error e), w) := by
  refine ⟨i.bytes, fun code => ⟨?_, ?_, ?_, ?_, ?_⟩⟩
  · simp [Instruction.write]
  · rw [Instruction.exists_encode_iff, Instruction.check?_eq_none_iff]
  · intro result h
    unfold Instruction.encode at h
    split at h
    · cases h
    · exact (Except.ok.inj h).symm
  · intro e
    rw [Instruction.encode_eq_error_iff, Instruction.check?_eq_some_iff]
  · intro w c e h hrefused
    exact exec_of_refused h hrefused

/-- All bits of the target are beyond its one byte, so that it would be written as a zero: it is
refused, and what would be written is not read back. Of two flaws, the form is named. -/
theorem encode_refusals_narrowTarget :
    Instruction.encode (.word .jmp (some (.integer .bits8 0x100))) #[] =
      .error (.narrowWordTarget .jmp .bits8) ∧
    (¬∃ length, decode [0x6B, 0] = .ok ⟨.word .jmp (some (.integer .bits8 0)), length, []⟩) ∧
    Instruction.Flaw (.argument .stop (.operand .i8)) (.immediateOperand .stop .i8) ∧
    Instruction.encode (.argument .stop (.operand .i8)) #[] =
      .error (.shapeMismatch .stop .nullary .argument) := by
  have hrefused : Instruction.encode (.word .jmp (some (.integer .bits8 0x100))) #[] =
      .error (.narrowWordTarget .jmp .bits8) := rfl
  obtain ⟨written, hjump⟩ := encode_refusals (.word .jmp (some (.integer .bits8 0x100)))
  obtain ⟨hwritten, haccepts, -⟩ := hjump #[]
  obtain rfl : written = [0x6B, 0] := hwritten.symm
  obtain ⟨_, hstop⟩ := encode_refusals (.argument .stop (.operand .i8))
  obtain ⟨-, -, -, hfirst, -⟩ := hstop #[]
  refine ⟨hrefused, ?_, .descriptor .stop .bits8, (hfirst _).mpr ⟨.shape (by decide), ?_⟩⟩
  · intro hread
    obtain ⟨result, hresult⟩ := haccepts.mpr hread
    rw [hrefused] at hresult
    cases hresult
  · intro e _
    exact Nat.zero_le _

end ImageLinker
