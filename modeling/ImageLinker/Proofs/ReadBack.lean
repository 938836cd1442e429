import ImageLinker.Listing
import ImageLinker.Proofs.References

/-!
# Complete images read back

Writing, linking and reading undo each other: an image that was completed consists of the
instructions that were written into the functions linked into it, and nothing else, so that reading
it gives them back in canonical form, with the final addresses of all symbols
(`Session.instructions_finish`).

Addresses count the bytes of the instructions as they were written. The canonical form may take
fewer: a jump to a symbol at address zero reads as a jump to zero, which has a shorter encoding.
-/

namespace ImageLinker

/-! ## Symbols that instructions name -/

/-- The symbol among the operands of an instruction. -/
def Instruction.symbol? : Instruction → Option SymbolId
  | argument _ (.immediate v) => v.symbol?
  | word _ (some target) => target.symbol?
  | _ => none

/-- Every symbol that is named leaves a fixup: a symbol is never taken for a zero target. -/
theorem Instruction.fixup?_of_symbol? {i : Instruction} {id : SymbolId} (h : i.symbol? = some id)
    (start : Nat) : i.fixup? start = some ⟨id, start + i.head.length⟩ := by
  have hpayload : i.payload? = some (.symbol id) := by
    unfold symbol? at h
    split at h
    · rename_i v
      cases v <;> simp_all [Immediate.symbol?, payload?]
    · rename_i v
      cases v <;> simp_all [Immediate.symbol?, payload?, Immediate.isZero]
    · cases h
  simp [fixup?, hpayload, Immediate.symbol?]

theorem exists_mem_fixupsFrom {is : List Instruction} {i : Instruction} (hi : i ∈ is)
    {id : SymbolId} (hid : i.symbol? = some id) (start : Nat) :
    ∃ f ∈ fixupsFrom start is, f.symbol = id := by
  induction is generalizing start with
  | nil => cases hi
  | cons j is ih =>
    rw [fixupsFrom]
    rcases List.mem_cons.mp hi with rfl | hi
    · have hfixup := Instruction.fixup?_of_symbol? hid start
      exact ⟨_, List.mem_append_left _ (by rw [hfixup]; exact List.mem_singleton_self _), rfl⟩
    · obtain ⟨f, hf, hsymbol⟩ := ih hi (start + j.encodedSize)
      exact ⟨f, List.mem_append_right _ hf, hsymbol⟩

/-! ## Complete images -/

theorem Image.listingRows_of_instructions {image : Image} {read : List (Nat × Instruction)}
    (h : image.instructions = .ok read.toArray) :
    image.listingRows = .ok (read.map fun p => image.listingRow p.1 p.2) := by
  simp [listingRows, h, bind, Except.bind, pure, Except.pure]

namespace Builder.Holds

variable {b : Builder} {ls : List LinkedFunction}

theorem checked (h : b.Holds ls) : ∀ i ∈ instructionsOf ls, i.check? = none := by
  have hchecked := checked_of_holds (forall₂_blocksOf h.texts)
  rwa [flatten_flatMap_text] at hchecked

/-- Reading the code of a builder gives what was written, with the addresses known by now. -/
theorem disassemble_code (h : b.Holds ls) :
    disassemble b.code = .ok ((withAddresses 0 (instructionsOf ls)).map
      fun (a, i) => (a, i.canon b.symbols.valueOf)).toArray := by
  rw [disassemble, h.code, disassembleFrom_codeAt _ _ h.checked]
  simp

/-- When nothing waits, every symbol that is named stands for an address within the image. -/
theorem addressOf?_of_symbol? (h : b.Holds ls) (hdone : b.pending = []) {i : Instruction}
    (hi : i ∈ instructionsOf ls) {id : SymbolId} (hid : i.symbol? = some id) :
    b.symbols.addressOf? id = some (b.symbols.valueOf id) ∧
      b.symbols.valueOf id ≤ b.code.size := by
  obtain ⟨f, hf, rfl⟩ := exists_mem_fixupsFrom hi hid 0
  rw [h.pending, List.filter_eq_nil_iff] at hdone
  cases ha : b.symbols.addressOf? f.symbol with
  | none => exact absurd (by simp [Symbols.isWaiting, ha]) (hdone f hf)
  | some a =>
    have hvalue : b.symbols.valueOf f.symbol = a := by simp [Symbols.valueOf, ha]
    rw [hvalue]
    exact ⟨rfl, h.address_le f.symbol a ha⟩

end Builder.Holds

namespace Session

/-- **Complete images read back.** However the functions were written, copied and linked, a complete
image reads as the instructions that had been written into the functions linked into it, in order of
linking, of blocks and of writing. Each is in canonical form, with the addresses of symbols in the
image, and each is at the address that the sizes of the written instructions before it add up to.
All symbols that are named have addresses, and the listing has a row for each instruction. -/
theorem instructions_finish (cs : List Command) (slot : String) (b : Builder) (image : Image)
    (hb : (after cs).workspace.builders.get? slot = some b) (himage : b.finish = .ok image) :
    image.instructions = .ok ((withAddresses 0 (instructionsOf ((after cs).linkedInto b.id))).map
      fun (a, i) => (a, i.canon image.symbols.valueOf)).toArray ∧
    (∀ i ∈ instructionsOf ((after cs).linkedInto b.id), ∀ id, i.symbol? = some id →
      image.symbols.addressOf? id = some (image.symbols.valueOf id) ∧
        image.symbols.valueOf id < addressLimit) ∧
    ∃ rows, image.listingRows = .ok rows ∧
      rows.map (fun r => (r.address, r.instruction)) =
        (withAddresses 0 (instructionsOf ((after cs).linkedInto b.id))).map
          fun (a, i) => (a, i.canon image.symbols.valueOf) := by
  have h := holds_after cs hb
  have hdone := h.exists_finish_iff.mp ⟨image, himage⟩
  rw [h.finish_eq, if_pos hdone] at himage
  cases himage
  have hread := h.disassemble_code
  refine ⟨hread, ?_, ?_⟩
  · intro i hi id hid
    obtain ⟨haddress, hle⟩ := h.addressOf?_of_symbol? hdone hi hid
    exact ⟨haddress, Nat.lt_of_le_of_lt hle h.code_lt⟩
  · refine ⟨_, Image.listingRows_of_instructions hread, ?_⟩
    rw [List.map_map]
    exact List.map_id _

/-- With the last function in place as well, which has no code, everything reads back: the call and
both jumps, the word for the end of the image, and the number cut to its width. -/
theorem instructions_mutualJumps : ∃ b image,
    (after (mutualJumps ++ [.link "b" "late"])).workspace.builders.get? "b" = some b ∧
    b.finish = .ok image ∧
    image.instructions = .ok #[
      (0, .word .call (some (.integer .bits64 22))),
      (9, .argument .add (.immediate (.integer .bits16 0x2345))),
      (13, .word .jmp (some (.integer .bits64 9))),
      (22, .argument .push (.immediate (.integer .bits64 40))),
      (31, .word .jmp (some (.integer .bits64 0)))] := by
  have hlist : ((after (mutualJumps ++ [.link "b" "late"])).workspace.builders.get? "b").bind
      (fun b => b.finish.toOption.map fun image =>
        (withAddresses 0 (instructionsOf
          ((after (mutualJumps ++ [.link "b" "late"])).linkedInto b.id))).map
            fun (a, i) => (a, i.canon image.symbols.valueOf)) = some [
        (0, .word .call (some (.integer .bits64 22))),
        (9, .argument .add (.immediate (.integer .bits16 0x2345))),
        (13, .word .jmp (some (.integer .bits64 9))),
        (22, .argument .push (.immediate (.integer .bits64 40))),
        (31, .word .jmp (some (.integer .bits64 0)))] := by
    decide +kernel
  obtain ⟨b, hb, hlist⟩ := Option.bind_eq_some_iff.mp hlist
  obtain ⟨image, himage, hlist⟩ := Option.map_eq_some_iff.mp hlist
  have hfinish : b.finish = .ok image := by
    cases h : b.finish with
    | error e => simp [h, Except.toOption] at himage
    | ok image' => simpa [h, Except.toOption] using himage
  have hread := (instructions_finish _ "b" b image hb hfinish).1
  rw [hlist] at hread
  exact ⟨b, image, hb, hfinish, hread⟩

end Session

end ImageLinker
