import ImageLinker.Proofs.Canonicity

/-!
# Assembly text

Instructions of all five forms share one flat syntax: the mnemonic, and behind it the operands, with
spaces between them. Registers, descriptors, widths and numbers stand in the same places, and the
text does not say which of them it shows. Still, two instructions that were read from bytes have the
same text only if they are the same.

* `Hex.padded_inj`: padded numbers are told apart; `Hex.value` reads them back.
* `Instruction.text_eq`: the text is the mnemonic and the `Instruction.words`, none of which holds a
  space (`Instruction.space_notMem`), so the text can be taken apart again.
* `Instruction.words_inj`: the words tell the operands, once the operation is known.
* `text_determines`: all of this in terms of the decoder.
-/

namespace ImageLinker

/-! ## Numbers -/

namespace Hex

/-- The number that a hexadecimal digit stands for. -/
def digitValue (c : Char) : Nat :=
  if c.isDigit then c.toNat - '0'.toNat else c.toNat - 'a'.toNat + 10

/-- The number that digits stand for, the most significant first. -/
def value (cs : List Char) : Nat :=
  cs.foldl (fun n c => 16 * n + digitValue c) 0

theorem digitValue_digitChar {d : Nat} (h : d < 16) : digitValue d.digitChar = d := by
  have hall : ∀ d : Fin 16, digitValue (Nat.digitChar d) = d := by decide
  exact hall ⟨d, h⟩

theorem value_concat (cs : List Char) (c : Char) :
    value (cs ++ [c]) = 16 * value cs + digitValue c := by
  simp [value]

theorem value_toDigits (n : Nat) : value (Nat.toDigits 16 n) = n := by
  induction n using Nat.strongRecOn with
  | ind n ih =>
    rw [Nat.toDigits_eq_if (by decide)]
    split
    · rename_i hdigit
      exact (value_concat [] _).trans (by simp [value, digitValue_digitChar hdigit])
    · have hdigit : n % 16 < 16 := Nat.mod_lt _ (by decide)
      rw [value_concat, ih (n / 16) (by omega), digitValue_digitChar hdigit, Nat.div_add_mod]

theorem value_digits (width n : Nat) : value (digits width n) = n := by
  have hzeros : ∀ k, (List.replicate k '0').foldl (fun n c => 16 * n + digitValue c) 0 = 0 := by
    intro k
    induction k with
    | zero => rfl
    | succ k ih => rwa [List.replicate_succ, List.foldl_cons]
  have hvalue := value_toDigits n
  unfold value at hvalue ⊢
  rw [digits, List.leftpad, List.foldl_append, hzeros, hvalue]

theorem toList_padded (width n : Nat) :
    (padded width n).toList = '0' :: 'x' :: digits width n := by
  simp [padded]

/-- A number can be read back from its text, however it was padded. -/
theorem padded_inj {width width' m n : Nat} (h : padded width m = padded width' n) : m = n := by
  have hlists := congrArg String.toList h
  rw [toList_padded, toList_padded, List.cons.injEq, List.cons.injEq] at hlists
  rw [← value_digits width m, hlists.2.2, value_digits]

theorem space_notMem_toDigits (n : Nat) : ' ' ∉ Nat.toDigits 16 n := by
  induction n using Nat.strongRecOn with
  | ind n ih =>
    have hdigit : ∀ d : Nat, ' ' ≠ d.digitChar := fun d => (Nat.digitChar_ne ' ' rfl).symm
    rw [Nat.toDigits_eq_if (by decide)]
    split
    · rw [List.mem_singleton]
      exact hdigit _
    · rw [List.mem_append, List.mem_singleton, not_or]
      exact ⟨ih _ (by omega), hdigit _⟩

theorem space_notMem_padded (width n : Nat) : ' ' ∉ (padded width n).toList := by
  rw [toList_padded, digits, List.leftpad]
  simp [space_notMem_toDigits]

end Hex

/-! ## Words -/

section Tables

variable {α : Type} {text : α → String} {read : String → Option α}

/-- Entries of a table are told apart by their texts if they can be found by them. -/
theorem eq_of_text (hread : ∀ a, read (text a) = some a) {a b : α} (h : text a = text b) :
    a = b := by
  have ha := hread a
  rw [h, hread b] at ha
  exact (Option.some.inj ha).symm

end Tables

theorem Width.ofText?_text (w : Width) : ofText? w.text = some w := by
  cases w <;> rfl

theorem Source.ofText?_text (a : Source) : ofText? a.text = some a := by
  cases a <;> rfl

theorem RegisterMode.ofText?_text (m : RegisterMode) : ofText? m.text = some m := by
  cases m <;> rfl

theorem Operation.space_notMem_mnemonic (op : Operation) : ' ' ∉ op.mnemonic.toList := by
  cases op <;> decide

theorem Width.space_notMem_text (w : Width) : ' ' ∉ w.text.toList := by
  cases w <;> decide

theorem Source.space_notMem_text (a : Source) : ' ' ∉ a.text.toList := by
  cases a <;> decide

theorem RegisterMode.space_notMem_text (m : RegisterMode) : ' ' ∉ m.text.toList := by
  cases m <;> decide

namespace Immediate

variable {v v' : Immediate}

/-- A number that fits its width is written in hexadecimal. -/
theorem text_of_isExact (h : v.IsExact) :
    ∃ bits, v = .integer v.width bits ∧ v.text = Hex.padded (2 * v.width.bytes) bits.toNat := by
  cases v with
  | integer width bits => exact ⟨bits, rfl, rfl⟩
  | float width bits => exact h.elim
  | symbol id => exact h.elim

theorem space_notMem_text (h : v.IsExact) : ' ' ∉ v.text.toList := by
  obtain ⟨bits, -, htext⟩ := text_of_isExact h
  rw [htext]
  exact Hex.space_notMem_padded _ _

/-- Numbers of one width are told apart by their texts. -/
theorem eq_of_text_of_isExact (h : v.IsExact) (h' : v'.IsExact) (hwidth : v.width = v'.width)
    (htext : v.text = v'.text) : v = v' := by
  obtain ⟨bits, hv, hbits⟩ := text_of_isExact h
  obtain ⟨bits', hv', hbits'⟩ := text_of_isExact h'
  rw [hbits, hbits'] at htext
  rw [hv, hv', hwidth, UInt64.toNat_inj.mp (Hex.padded_inj htext)]

/-- A number is never taken for a register. -/
theorem text_ne_register (h : v.IsExact) (mode : RegisterMode) : v.text ≠ mode.text := by
  obtain ⟨bits, -, hbits⟩ := text_of_isExact h
  intro htext
  have hlists := congrArg String.toList (hbits.symm.trans htext)
  rw [Hex.toList_padded] at hlists
  cases mode <;> cases hlists

end Immediate

namespace Instruction

/-- What stands behind the mnemonic in assembly text. -/
def words : Instruction → List String
  | nullary _ => []
  | argument _ .implicit => []
  | argument _ (.immediate v) => [v.width.text, v.text]
  | argument _ (.operand source) => [source.text]
  | register _ mode => [mode.text]
  | size _ width => [width.text]
  | word _ (some target) => [target.text]
  | word _ none => [RegisterMode.usesLeft.text]

theorem text_eq (i : Instruction) :
    i.text = " ".intercalate (i.operation.mnemonic :: i.words) := by
  cases i with
  | nullary op => rfl
  | register op mode => rfl
  | size op width => rfl
  | argument op a => cases a <;> rfl
  | word op target => cases target <;> rfl

theorem space_notMem {i : Instruction} (h : i.IsExact) :
    ∀ word ∈ i.operation.mnemonic :: i.words, ' ' ∉ word.toList := by
  rw [List.forall_mem_cons]
  refine ⟨Operation.space_notMem_mnemonic _, ?_⟩
  cases i with
  | nullary op => exact List.forall_mem_nil _
  | register op mode => exact List.forall_mem_singleton.mpr mode.space_notMem_text
  | size op width => exact List.forall_mem_singleton.mpr width.space_notMem_text
  | argument op a =>
    cases a with
    | implicit => exact List.forall_mem_nil _
    | operand source => exact List.forall_mem_singleton.mpr source.space_notMem_text
    | immediate v =>
      exact List.forall_mem_cons.mpr ⟨v.width.space_notMem_text,
        List.forall_mem_singleton.mpr (Immediate.space_notMem_text h)⟩
  | word op target =>
    cases target with
    | none => exact List.forall_mem_singleton.mpr RegisterMode.usesLeft.space_notMem_text
    | some v => exact List.forall_mem_singleton.mpr (Immediate.space_notMem_text h.1)

/-- The text is taken apart at its spaces. -/
theorem splitOn_text {i : Instruction} (h : i.IsExact) :
    i.text.toList.splitOn ' ' = (i.operation.mnemonic :: i.words).map String.toList := by
  have hspaces : ∀ cs ∈ (i.operation.mnemonic :: i.words).map String.toList, ' ' ∉ cs := by
    rw [List.forall_mem_map]
    exact space_notMem h
  rw [text_eq, String.toList_intercalate]
  exact List.splitOn_intercalate ' ' hspaces (List.cons_ne_nil _ _)

/-! ## Operands -/

/-- A target that was read is as wide as an address, so that its text need not say so. -/
theorem target_width {op : Operation} {v : Immediate} (hcheck : (word op (some v)).check? = none)
    (hexact : (word op (some v)).IsExact) : v.width = .bits64 := by
  cases hz : v.isZero with
  | true => rw [eq_zero_of_isExact hexact hz]; rfl
  | false => exact target_of_check hcheck hz

theorem words_inj {i j : Instruction} (hi : i.check? = none) (hj : j.check? = none)
    (hxi : i.IsExact) (hxj : j.IsExact) (hop : i.operation = j.operation)
    (h : i.words = j.words) : i = j := by
  -- The operation fixes the form, since both have passed the check.
  have hshape : i.shape = j.shape := by
    rw [← shape_of_check hi, ← shape_of_check hj, hop]
  cases i with
  | nullary op =>
    cases j <;> cases hshape
    cases hop
    rfl
  | register op mode =>
    cases j <;> cases hshape
    cases hop
    rw [eq_of_text RegisterMode.ofText?_text (List.singleton_inj.mp h)]
  | size op width =>
    cases j <;> cases hshape
    cases hop
    rw [eq_of_text Width.ofText?_text (List.singleton_inj.mp h)]
  | argument op a =>
    cases j <;> cases hshape
    cases hop
    rename_i a'
    cases a <;> cases a' <;> simp only [words, List.cons.injEq, reduceCtorEq, and_false,
      and_true] at h
    case implicit.implicit => rfl
    case operand.operand source source' => rw [eq_of_text Source.ofText?_text h]
    case immediate.immediate v v' =>
      have hwidth := eq_of_text Width.ofText?_text h.1
      rw [Immediate.eq_of_text_of_isExact hxi hxj hwidth h.2]
  | word op target =>
    cases j <;> cases hshape
    cases hop
    rename_i target'
    cases target <;> cases target' <;> replace h := List.singleton_inj.mp h
    case none.none => rfl
    case none.some v => exact absurd h.symm (Immediate.text_ne_register hxj.1 _)
    case some.none v => exact absurd h (Immediate.text_ne_register hxi.1 _)
    case some.some v v' =>
      have hwidth := (target_width hi hxi).trans (target_width hj hxj).symm
      rw [Immediate.eq_of_text_of_isExact hxi.1 hxj.1 hwidth h]

theorem text_inj {i j : Instruction} (hi : i.check? = none) (hj : j.check? = none)
    (hxi : i.IsExact) (hxj : j.IsExact) (h : i.text = j.text) : i = j := by
  have hwords := splitOn_text hxi
  rw [h, splitOn_text hxj] at hwords
  have hlists := (List.map_inj_right fun _ _ => String.toList_inj.mp).mp hwords
  rw [List.cons.injEq] at hlists
  exact (words_inj hj hi hxj hxi (eq_of_text Operation.ofMnemonic?_mnemonic hlists.1)
    hlists.2).symm

end Instruction

/-- **Assembly text is unambiguous.** If the first instructions of two runs of bytes have the same
text, they are the same instruction: the operation, the form, and every operand with its width and
its bits. -/
theorem text_determines (bytes bytes' : List UInt8) (d d' : Decoded) (h : decode bytes = .ok d)
    (h' : decode bytes' = .ok d') (htext : d.instruction.text = d'.instruction.text) :
    d.instruction = d'.instruction := by
  have haccounts := decode_eq_ok h
  have haccounts' := decode_eq_ok h'
  exact Instruction.text_inj haccounts.checked haccounts'.checked haccounts.exact haccounts'.exact
    htext

/-- The two encodings of a jump to zero have the same text, and what was read is the same. -/
theorem text_determines_jumpToZero : ∃ d d' : Decoded,
    decode [0xAB] = .ok d ∧ decode [0x6B, 0, 0, 0, 0, 0, 0, 0, 0, 0x00] = .ok d' ∧
    d.instruction.text = "jmp 0x0000000000000000" ∧
    d'.instruction.text = "jmp 0x0000000000000000" ∧ d.instruction = d'.instruction := by
  have htext : (Instruction.word .jmp (some (.integer .bits64 0))).text =
      "jmp 0x0000000000000000" := by decide +kernel
  refine ⟨⟨.word .jmp (some (.integer .bits64 0)), 1, []⟩,
    ⟨.word .jmp (some (.integer .bits64 0)), 9, [0x00]⟩, rfl, rfl, htext, htext, ?_⟩
  exact text_determines [0xAB] [0x6B, 0, 0, 0, 0, 0, 0, 0, 0, 0x00] _ _ rfl rfl rfl

end ImageLinker
