import ImageLinker.Proofs.Boundaries

/-!
# What writing an instruction appends

The writer does not look at the form of an instruction, nor at the code that it appends to. The size
that an instruction announces is computed apart from its bytes, and both have to agree for every
form and every immediate, since the layout of an image rests on the sizes alone. A symbol among the
operands takes the last eight bytes, whatever stands in front of it.

* `Instruction.bind_symbol?_payload?`, `Instruction.fixup?_eq`: the symbols among the operands are
  what leaves a fixup.
* `Instruction.bytes_of_symbol?`: where the eight bytes of a symbol stand.
* `write_appends`: both in terms of the writer.
-/

namespace ImageLinker

namespace Instruction

/-- The payload names the symbol that is among the operands, and no other. -/
theorem bind_symbol?_payload? (i : Instruction) :
    i.payload?.bind Immediate.symbol? = i.symbol? := by
  cases i with
  | nullary op => rfl
  | register op mode => rfl
  | size op width => rfl
  | argument op a => cases a <;> rfl
  | word op target =>
    cases target with
    | none => rfl
    | some v =>
      -- A target of zero has no payload, but a symbol is not taken for one.
      show (if v.isZero then none else some v).bind Immediate.symbol? = v.symbol?
      cases v with
      | symbol id => rfl
      | integer width bits => split <;> rfl
      | float width bits => split <;> rfl

theorem fixup?_eq (i : Instruction) (start : Nat) :
    i.fixup? start = i.symbol?.map fun id => ⟨id, start + i.head.length⟩ := by
  rw [fixup?, bind_symbol?_payload?]

/-- The bytes of an instruction that names a symbol end in eight zeros, which the announced size
leaves behind the head. -/
theorem bytes_of_symbol? {i : Instruction} {id : SymbolId} (h : i.symbol? = some id) :
    i.bytes = i.head ++ List.replicate addressSize 0 ∧
      i.head.length + addressSize = i.encodedSize := by
  have hbytes : i.bytes = i.head ++ List.replicate addressSize 0 := by
    rw [← bytesAt_zero, bytesAt_of_symbol? h, leBytes_zero]
  refine ⟨hbytes, ?_⟩
  rw [← length_bytes, hbytes, List.length_append, List.length_replicate]

end Instruction

/-- **Writing appends what was announced.** The bytes that are appended depend on the instruction
alone, whatever its form, and are as many as its size says. A fixup is returned if and only if a
symbol is among the operands, and it names that symbol. It is for the last eight bytes, which are
zero and stand behind an opcode byte. -/
theorem write_appends (i : Instruction) :
    ∃ written : List UInt8, written.length = i.encodedSize ∧ ∀ code : Code,
      (i.write code).1.toList = code.toList ++ written ∧
      (i.write code).2.map Fixup.symbol = i.symbol? ∧
      ∀ f, (i.write code).2 = some f →
        code.size < f.offset ∧ f.offset + addressSize = code.size + i.encodedSize ∧
        (i.write code).1.toList.drop f.offset = List.replicate addressSize 0 := by
  refine ⟨i.bytes, i.length_bytes, fun code => ⟨?_, ?_, ?_⟩⟩
  · simp [Instruction.write]
  · show (i.fixup? code.size).map Fixup.symbol = i.symbol?
    rw [Instruction.fixup?_eq]
    cases i.symbol? <;> rfl
  · intro f hf
    have hfixup : i.fixup? code.size = some f := hf
    rw [Instruction.fixup?_eq] at hfixup
    obtain ⟨id, hid, rfl⟩ := Option.map_eq_some_iff.mp hfixup
    obtain ⟨hbytes, hsize⟩ := Instruction.bytes_of_symbol? hid
    have hhead : 0 < i.head.length := List.length_pos_iff.mpr i.head_ne_nil
    have hfront : (code.toList ++ i.head).length = code.size + i.head.length := by
      rw [List.length_append, Array.length_toList]
    refine ⟨?_, ?_, ?_⟩
    · show code.size < code.size + i.head.length
      omega
    · show code.size + i.head.length + addressSize = code.size + i.encodedSize
      omega
    · show (code ++ i.bytes).toList.drop (code.size + i.head.length) = _
      rw [Array.toList_appendList, hbytes, ← List.append_assoc, List.drop_left' hfront]

/-- A symbol as the argument of a jump, which takes no argument: it is written all the same, behind
the one byte that was there, and the fixup is for the end of the code. -/
theorem write_appends_misshaped :
    (Instruction.argument .jmp (.immediate (.symbol ⟨7⟩))).check? ≠ none ∧
    Instruction.write (.argument .jmp (.immediate (.symbol ⟨7⟩))) #[0x3D] =
      (#[0x3D, 0xAB, 0, 0, 0, 0, 0, 0, 0, 0], some ⟨⟨7⟩, 2⟩) ∧
    2 + addressSize =
      1 + (Instruction.argument .jmp (.immediate (.symbol ⟨7⟩))).encodedSize := by
  have hwrite : Instruction.write (.argument .jmp (.immediate (.symbol ⟨7⟩))) #[0x3D] =
      (#[0x3D, 0xAB, 0, 0, 0, 0, 0, 0, 0, 0], some ⟨⟨7⟩, 2⟩) := rfl
  obtain ⟨_, -, happends⟩ := write_appends (.argument .jmp (.immediate (.symbol ⟨7⟩)))
  obtain ⟨-, -, hfixup⟩ := happends #[0x3D]
  obtain ⟨-, hend, -⟩ := hfixup ⟨⟨7⟩, 2⟩ (by rw [hwrite])
  exact ⟨by decide, hwrite, hend⟩

end ImageLinker
