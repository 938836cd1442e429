import ImageLinker.Proofs.RoundTrip
import Mathlib.Algebra.GroupWithZero.Nat

/-!
# Disassembling written code

Code is written instruction by instruction, and it is read in the same steps: the decoder stops
where the next instruction begins, so a run of instructions is read back one by one.

* `codeAt address is`: the code of a list of instructions when symbols have the given addresses.
* `withAddresses start is`: the instructions with the sum of the sizes before them.
* `disassembleFrom_codeAt`: reading the code gives the canonical instructions at these addresses.
-/

namespace ImageLinker

/-- The code of instructions that stand one behind the other, when symbols have the given
addresses. -/
def codeAt (address : SymbolId → Nat) (is : List Instruction) : List UInt8 :=
  is.flatMap (Instruction.bytesAt address)

/-- The number of bytes that instructions take. -/
def codeSize (is : List Instruction) : Nat :=
  (is.map Instruction.encodedSize).sum

/-- Instructions with their addresses: each one stands behind all that come before it, and the first
one at `start`. -/
def withAddresses (start : Nat) : List Instruction → List (Nat × Instruction)
  | [] => []
  | i :: is => (start, i) :: withAddresses (start + i.encodedSize) is

section Code

variable (address : SymbolId → Nat)

@[simp] theorem codeAt_nil : codeAt address [] = [] := rfl

@[simp] theorem codeAt_cons (i : Instruction) (is : List Instruction) :
    codeAt address (i :: is) = i.bytesAt address ++ codeAt address is := rfl

@[simp] theorem codeAt_append (is js : List Instruction) :
    codeAt address (is ++ js) = codeAt address is ++ codeAt address js :=
  List.flatMap_append

@[simp] theorem length_codeAt (is : List Instruction) :
    (codeAt address is).length = codeSize is := by
  induction is with
  | nil => rfl
  | cons i is ih => simp [codeSize, ih]

end Code

@[simp] theorem codeSize_nil : codeSize [] = 0 := rfl

@[simp] theorem codeSize_cons (i : Instruction) (is : List Instruction) :
    codeSize (i :: is) = i.encodedSize + codeSize is := by
  simp [codeSize]

@[simp] theorem codeSize_append (is js : List Instruction) :
    codeSize (is ++ js) = codeSize is + codeSize js := by
  simp [codeSize]

theorem Instruction.head_ne_nil (i : Instruction) : i.head ≠ [] := by
  unfold head
  split <;> try simp
  · split <;> simp
  · split <;> simp

/-- Reading goes on behind the instruction that was read. -/
theorem disassembleFrom_of_decode {start : Nat} {bytes : List UInt8} {d : Decoded}
    (read : Array (Nat × Instruction)) (h : decode bytes = .ok d) :
    disassembleFrom start bytes read =
      disassembleFrom (start + d.length) d.rest (read.push (start, d.instruction)) := by
  have hne : bytes ≠ [] := by
    rintro rfl
    cases h
  rw [disassembleFrom]
  split
  · rename_i hempty
    exact absurd (List.isEmpty_iff.mp hempty) hne
  · split
    · rename_i e he
      rw [h] at he
      cases he
    · rename_i d' hd
      rw [h] at hd
      cases hd
      rfl

/-- **Code is read back instruction by instruction.** What passes the check is found again in
canonical form, each instruction at its address. Induction on the instructions, with what was read
before as an accumulator. -/
theorem disassembleFrom_codeAt (address : SymbolId → Nat) (is : List Instruction)
    (h : ∀ i ∈ is, i.check? = none) (start : Nat) (read : Array (Nat × Instruction)) :
    disassembleFrom start (codeAt address is) read =
      .ok (read ++ (withAddresses start is).map fun (a, i) => (a, i.canon address)) := by
  induction is generalizing start read with
  | nil => simp [disassembleFrom, withAddresses]
  | cons i is ih =>
    have hdecode := decode_bytesAt address i (codeAt address is) (h i (by simp))
    rw [codeAt_cons, disassembleFrom_of_decode read hdecode, ih fun j hj => h j (by simp [hj])]
    simp [withAddresses]

end ImageLinker
