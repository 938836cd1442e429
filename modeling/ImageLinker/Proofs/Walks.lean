import ImageLinker.Proofs.Disassembly
import ImageLinker.Proofs.Verdicts

/-!
# Walks over code

Disassembling goes over code instruction by instruction, and the only thing that it knows of its
place is how many bytes are left. A walk says the same of any stretch of code: from an address on,
these instructions are read, and what is left begins at that address.

* `Walk`: a walk from one boundary to a later one. Walks are joined (`Walk.trans`), they stay walks
  when code is added behind them or taken off behind them (`Walk.append`, `Walk.cut`), and when the
  code is moved (`Walk.shift`).
* `exists_walk`: every code can be walked over, to its end or to where the decoder fails.
* `disassemble_eq_ok_iff`, `disassemble_eq_error_iff`: this is what disassembling finds.
* `disassemble_walks`: disassembling joined code, where it fails, and what the addresses mean.
-/

namespace ImageLinker

/-- From `start` on, the bytes are those of the instructions in `read`, and `rest` is left at
`stop`. -/
inductive Walk : Nat → List UInt8 → List (Nat × Instruction) → Nat → List UInt8 → Prop where
  | refl (start : Nat) (bytes : List UInt8) : Walk start bytes [] start bytes
  | step {start stop : Nat} {bytes rest : List UInt8} {d : Decoded}
    {read : List (Nat × Instruction)} (hdecode : decode bytes = .ok d)
    (hwalk : Walk (start + d.length) d.rest read stop rest) :
    Walk start bytes ((start, d.instruction) :: read) stop rest

/-- An instruction that was read, in code that begins `distance` bytes later. -/
def shifted (distance : Nat) (p : Nat × Instruction) : Nat × Instruction :=
  (distance + p.1, p.2)

/-- What is read depends on the bytes that are taken, and on no others. -/
theorem decode_taken {bytes : List UInt8} {d : Decoded} (h : decode bytes = .ok d) :
    ∃ taken, taken.length = d.length ∧ bytes = taken ++ d.rest ∧
      ∀ rest, decode (taken ++ rest) = .ok { d with rest } := by
  obtain ⟨hcheck, hexact, taken, htaken, hbytes⟩ := decode_eq_ok h
  have hlength : taken.length = d.length := by
    have hall := (decode_length h).2
    rw [hbytes, List.length_append] at hall
    omega
  refine ⟨taken, hlength, hbytes, ?_⟩
  intro rest
  rw [decode_of_mem_encodings hcheck hexact htaken rest, hlength]

namespace Walk

variable {start stop : Nat} {bytes rest : List UInt8} {read : List (Nat × Instruction)}

theorem trans {last : Nat} {tail : List UInt8} {read' : List (Nat × Instruction)}
    (h : Walk start bytes read stop rest) (h' : Walk stop rest read' last tail) :
    Walk start bytes (read ++ read') last tail := by
  induction h with
  | refl => exact h'
  | step hdecode _ ih => exact .step hdecode (ih h')

/-- Code that is added behind is left. -/
theorem append (h : Walk start bytes read stop rest) (more : List UInt8) :
    Walk start (bytes ++ more) read stop (rest ++ more) := by
  induction h with
  | refl start bytes => exact .refl start (bytes ++ more)
  | @step _ _ _ _ d _ hdecode _ ih =>
    exact .step (d := { d with rest := d.rest ++ more }) (decode_stable.complete hdecode more) ih

theorem shift (h : Walk start bytes read stop rest) (distance : Nat) :
    Walk (distance + start) bytes (read.map (shifted distance)) (distance + stop) rest := by
  induction h with
  | refl start bytes => exact .refl (distance + start) bytes
  | step hdecode _ ih =>
    rw [← Nat.add_assoc] at ih
    exact .step hdecode ih

/-- The bytes that are left begin where the walk stops. -/
theorem stop_add_length (h : Walk start bytes read stop rest) :
    stop + rest.length = start + bytes.length := by
  induction h with
  | refl => rfl
  | step hdecode _ ih =>
    have hlength := (decode_length hdecode).2
    omega

/-- What is left can be taken off, since nothing of it was looked at. -/
theorem cut (h : Walk start bytes read stop rest) :
    ∃ front, bytes = front ++ rest ∧ Walk start front read stop [] := by
  induction h with
  | refl start bytes => exact ⟨[], rfl, .refl start []⟩
  | @step _ _ _ _ d _ hdecode _ ih =>
    obtain ⟨taken, -, hbytes, htaken⟩ := decode_taken hdecode
    obtain ⟨front, hrest, hwalk⟩ := ih
    refine ⟨taken ++ front, ?_, ?_⟩
    · rw [hbytes, hrest, List.append_assoc]
    · exact .step (d := { d with rest := front }) (htaken front) hwalk

/-! ## Addresses on the way -/

/-- The address behind the instructions that were read, or of the first one of them. -/
theorem head?_addresses (h : Walk start bytes read stop rest) :
    (read.map Prod.fst ++ [stop]).head? = some start := by
  cases h <;> rfl

theorem start_le (h : Walk start bytes read stop rest) : start ≤ stop := by
  induction h with
  | refl => exact Nat.le_refl _
  | step _ _ ih => omega

theorem bounds (h : Walk start bytes read stop rest) {p : Nat × Instruction} (hp : p ∈ read) :
    start ≤ p.1 ∧ p.1 < stop := by
  induction h with
  | refl => cases hp
  | @step start stop _ _ d _ hdecode hwalk ih =>
    have hpos := (decode_length hdecode).1
    rcases List.mem_cons.mp hp with rfl | hp
    · have hle := hwalk.start_le
      show start ≤ start ∧ start < stop
      omega
    · have hbounds := ih hp
      omega

theorem increasing (h : Walk start bytes read stop rest) :
    (read.map Prod.fst).Pairwise (· < ·) := by
  induction h with
  | refl => exact .nil
  | step hdecode hwalk ih =>
    refine .cons ?_ ih
    intro a ha
    obtain ⟨p, hp, rfl⟩ := List.mem_map.mp ha
    have hpos := (decode_length hdecode).1
    have hbounds := hwalk.bounds hp
    show _ < p.1
    omega

/-- Each instruction is read from the bytes at its address, and the next address is behind the bytes
that it takes. Induction on the walk: its first instruction is the one in question, or the walk
behind that has it. -/
theorem consumed (h : Walk start bytes read stop rest) {k a : Nat} {i : Instruction}
    (hk : read[k]? = some (a, i)) :
    ∃ d, decode (bytes.drop (a - start)) = .ok d ∧ d.instruction = i ∧
      (read.map Prod.fst ++ [stop])[k + 1]? = some (a + d.length) ∧
      a + d.length + d.rest.length = start + bytes.length := by
  induction h generalizing k with
  | refl => cases hk
  | @step start stop bytes rest d read hdecode hwalk ih =>
    have hlength := (decode_length hdecode).2
    cases k with
    | zero =>
      cases hk
      have hnext := hwalk.head?_addresses
      rw [List.head?_eq_getElem?] at hnext
      refine ⟨d, ?_, rfl, hnext, by omega⟩
      rw [Nat.sub_self]
      exact hdecode
    | succ k =>
      rw [List.getElem?_cons_succ] at hk
      obtain ⟨d', hdecode', hi, hnext, hrest⟩ := ih hk
      have hbounds := hwalk.bounds (List.mem_of_getElem? hk)
      obtain ⟨taken, htaken, hbytes, -⟩ := decode_taken hdecode
      -- Both count the same bytes, from two ends of the first instruction.
      have hdrop : bytes.drop (a - start) = d.rest.drop (a - (start + d.length)) := by
        have ha : a - start = taken.length + (a - (start + d.length)) := by
          simp only at hbounds
          omega
        rw [hbytes, ha, ← List.drop_drop, List.drop_left]
      exact ⟨d', by rw [hdrop, hdecode'], hi, hnext, by omega⟩

end Walk

/-! ## Disassembling -/

theorem disassembleFrom_nil (start : Nat) (read : Array (Nat × Instruction)) :
    disassembleFrom start [] read = .ok read := by
  simp [disassembleFrom]

theorem disassembleFrom_of_error {bytes : List UInt8} {e : DecodeError} (hne : bytes ≠ [])
    (h : decode bytes = .error e) (start : Nat) (read : Array (Nat × Instruction)) :
    disassembleFrom start bytes read = .error (.malformedInstruction start) := by
  rw [disassembleFrom, if_neg (by simpa using hne)]
  split
  · rfl
  · rename_i d hd
    rw [h] at hd
    cases hd

/-- Disassembling follows a walk, and goes on where it stops. -/
theorem Walk.disassembleFrom_eq {start stop : Nat} {bytes rest : List UInt8}
    {read : List (Nat × Instruction)} (h : Walk start bytes read stop rest)
    (before : Array (Nat × Instruction)) :
    disassembleFrom start bytes before = disassembleFrom stop rest (before ++ read) := by
  induction h generalizing before with
  | refl => simp
  | step hdecode _ ih =>
    rw [disassembleFrom_of_decode before hdecode, ih]
    simp

/-- **Code is walked over.** The walk comes to the end of the code, or to bytes that are not read.
Each instruction leaves fewer bytes, so it comes to one of the two. -/
theorem exists_walk (start : Nat) (bytes : List UInt8) :
    ∃ read stop rest, Walk start bytes read stop rest ∧
      (rest = [] ∨ rest ≠ [] ∧ ∃ e, decode rest = .error e) := by
  by_cases hne : bytes = []
  · exact ⟨[], start, bytes, .refl start bytes, .inl hne⟩
  cases hdecode : decode bytes with
  | error e => exact ⟨[], start, bytes, .refl start bytes, .inr ⟨hne, e, hdecode⟩⟩
  | ok d =>
    have hlt := decode_rest_lt hdecode
    obtain ⟨read, stop, rest, hwalk, hend⟩ := exists_walk (start + d.length) d.rest
    exact ⟨_, stop, rest, .step hdecode hwalk, hend⟩
termination_by bytes.length

theorem Walk.disassemble_of_nil {code : Code} {read : List (Nat × Instruction)} {stop : Nat}
    (h : Walk 0 code.toList read stop []) : disassemble code = .ok read.toArray := by
  rw [disassemble, h.disassembleFrom_eq, disassembleFrom_nil]
  simp

theorem Walk.disassemble_of_error {code : Code} {read : List (Nat × Instruction)} {stop : Nat}
    {rest : List UInt8} {e : DecodeError} (h : Walk 0 code.toList read stop rest) (hne : rest ≠ [])
    (he : decode rest = .error e) : disassemble code = .error (.malformedInstruction stop) := by
  rw [disassemble, h.disassembleFrom_eq, disassembleFrom_of_error hne he]

/-- Code is disassembled if a walk comes to its end. -/
theorem disassemble_eq_ok_iff {code : Code} {read : Array (Nat × Instruction)} :
    disassemble code = .ok read ↔ Walk 0 code.toList read.toList code.size [] := by
  constructor
  · intro h
    obtain ⟨found, stop, rest, hwalk, rfl | ⟨hne, e, he⟩⟩ := exists_walk 0 code.toList
    · have hstop : stop = code.size := by simpa using hwalk.stop_add_length
      rw [hwalk.disassemble_of_nil, Except.ok.injEq] at h
      rw [← h, ← hstop]
      exact hwalk
    · rw [hwalk.disassemble_of_error hne he] at h
      cases h
  · intro h
    rw [h.disassemble_of_nil, Array.toArray_toList]

/-- Disassembling fails where a walk comes to bytes that are not read, and for no other reason. -/
theorem disassemble_eq_error_iff {code : Code} {error : BuildError} :
    disassemble code = .error error ↔ ∃ read stop rest e, Walk 0 code.toList read stop rest ∧
      rest ≠ [] ∧ decode rest = .error e ∧ error = .malformedInstruction stop := by
  constructor
  · intro h
    obtain ⟨found, stop, rest, hwalk, rfl | ⟨hne, e, he⟩⟩ := exists_walk 0 code.toList
    · rw [hwalk.disassemble_of_nil] at h
      cases h
    · rw [hwalk.disassemble_of_error hne he, Except.error.injEq] at h
      exact ⟨found, stop, rest, e, hwalk, hne, he, h.symm⟩
  · rintro ⟨read, stop, rest, e, hwalk, hne, he, rfl⟩
    exact hwalk.disassemble_of_error hne he

/-! ## Laws of disassembling -/

section Joined

variable {a b : Code} {read : Array (Nat × Instruction)}

/-- The walk over the first code comes to the second one. -/
theorem walk_append (h : disassemble a = .ok read) :
    Walk 0 (a ++ b).toList read.toList a.size b.toList := by
  have hwalk := (disassemble_eq_ok_iff.mp h).append b.toList
  rw [List.nil_append] at hwalk
  rw [Array.toList_append]
  exact hwalk

theorem disassemble_append_ok {read' : Array (Nat × Instruction)} (h : disassemble a = .ok read)
    (h' : disassemble b = .ok read') :
    disassemble (a ++ b) = .ok (read ++ read'.map (shifted a.size)) := by
  have hwalk := (walk_append h).trans ((disassemble_eq_ok_iff.mp h').shift a.size)
  rw [hwalk.disassemble_of_nil]
  simp

theorem disassemble_append_error {offset : Nat} (h : disassemble a = .ok read)
    (h' : disassemble b = .error (.malformedInstruction offset)) :
    disassemble (a ++ b) = .error (.malformedInstruction (a.size + offset)) := by
  obtain ⟨read', stop, rest, e, hwalk, hne, he, hstop⟩ := disassemble_eq_error_iff.mp h'
  cases hstop
  exact ((walk_append h).trans (hwalk.shift a.size)).disassemble_of_error hne he

end Joined

/-- Disassembling fails at the place where the decoder fails and all code in front can be
disassembled. -/
theorem disassemble_fails_iff (code : Code) (offset : Nat) :
    disassemble code = .error (.malformedInstruction offset) ↔
      offset < code.size ∧ (∃ read, disassemble (code.take offset) = .ok read) ∧
        ∃ e, decode (code.toList.drop offset) = .error e := by
  have htake : (code.take offset).toList = code.toList.take offset := by simp
  constructor
  · intro h
    obtain ⟨read, stop, rest, e, hwalk, hne, he, hstop⟩ := disassemble_eq_error_iff.mp h
    cases hstop
    obtain ⟨front, hcode, hfront⟩ := hwalk.cut
    have hlength : front.length = offset := by simpa using hfront.stop_add_length.symm
    have hpos := List.length_pos_iff.mpr hne
    have hsize : code.size = offset + rest.length := by
      rw [← Array.length_toList, hcode, List.length_append, hlength]
    refine ⟨by omega, ⟨read.toArray, ?_⟩, e, ?_⟩
    · have hcut : (code.take offset).toList = front := by rw [htake, hcode, List.take_left' hlength]
      rw [← hcut] at hfront
      exact hfront.disassemble_of_nil
    · rw [hcode, List.drop_left' hlength]
      exact he
  · rintro ⟨hlt, ⟨read, hread⟩, e, he⟩
    have hwalk := (disassemble_eq_ok_iff.mp hread).append (code.toList.drop offset)
    have hsize : (code.take offset).size = offset := by
      rw [← Array.length_toList, htake, List.length_take, Array.length_toList]
      omega
    rw [htake, List.take_append_drop, List.nil_append, hsize] at hwalk
    have hne : code.toList.drop offset ≠ [] := by
      rw [ne_eq, List.drop_eq_nil_iff, Array.length_toList]
      omega
    exact hwalk.disassemble_of_error hne he

/-- What is known of the instructions that code was disassembled into. -/
structure Covers (read : Array (Nat × Instruction)) (code : Code) : Prop where
  increasing : (read.toList.map Prod.fst).Pairwise (· < ·)
  start : code ≠ #[] → (read.toList.map Prod.fst).head? = some 0
  /-- Each instruction is what the decoder finds at its address, and the next address, or the size
  of the code, is behind the bytes that were taken for it. -/
  consumed : ∀ (k a : Nat) i, read[k]? = some (a, i) →
    ∃ d, decode (code.toList.drop a) = .ok d ∧ d.instruction = i ∧
      (read.toList.map Prod.fst ++ [code.size])[k + 1]? = some (a + d.length) ∧
      a + d.length + d.rest.length = code.size

theorem Walk.covers {code : Code} {read : Array (Nat × Instruction)}
    (h : Walk 0 code.toList read.toList code.size []) : Covers read code where
  increasing := h.increasing
  start hne := by
    have hhead := h.head?_addresses
    cases hread : read.toList with
    | nil =>
      -- The walk stops where it starts, so that there was nothing to walk over.
      rw [hread, List.map_nil, List.nil_append, List.head?_cons, Option.some.injEq] at hhead
      exact absurd (Array.size_eq_zero_iff.mp hhead) hne
    | cons p tail =>
      rw [hread] at hhead
      exact hhead
  consumed := by
    intro k a i hk
    rw [← Array.getElem?_toList] at hk
    have hconsumed := h.consumed hk
    rw [Nat.sub_zero, Nat.zero_add, Array.length_toList] at hconsumed
    exact hconsumed

/-- **Disassembling.** It ends on all code, with the instructions or with the one error that it can
give. Joined code is disassembled as its parts are, each at its place; where only the second part
fails, it fails there. An error gives the place where the decoder fails and in front of which all
code can be disassembled. Without an error, the addresses begin at zero and increase by what the
decoder takes at each of them, up to the size of the code. -/
theorem disassemble_walks :
    (∀ code, (∃ read, disassemble code = .ok read) ∨
      ∃ offset, disassemble code = .error (.malformedInstruction offset)) ∧
    (∀ a b read, disassemble a = .ok read →
      (∀ read', disassemble b = .ok read' →
        disassemble (a ++ b) = .ok (read ++ read'.map (shifted a.size))) ∧
      ∀ offset, disassemble b = .error (.malformedInstruction offset) →
        disassemble (a ++ b) = .error (.malformedInstruction (a.size + offset))) ∧
    (∀ code offset, disassemble code = .error (.malformedInstruction offset) ↔
      offset < code.size ∧ (∃ read, disassemble (code.take offset) = .ok read) ∧
        ∃ e, decode (code.toList.drop offset) = .error e) ∧
    ∀ code read, disassemble code = .ok read → Covers read code := by
  refine ⟨?_, ?_, disassemble_fails_iff, ?_⟩
  · intro code
    cases h : disassemble code with
    | ok read => exact .inl ⟨read, rfl⟩
    | error error =>
      obtain ⟨-, stop, -, -, -, -, -, rfl⟩ := disassemble_eq_error_iff.mp h
      exact .inr ⟨stop, rfl⟩
  · intro a b read h
    refine ⟨?_, ?_⟩
    · intro read' h'
      exact disassemble_append_ok h h'
    · intro offset h'
      exact disassemble_append_error h h'
  · intro code read h
    exact (disassemble_eq_ok_iff.mp h).covers

/-- Behind an addition and a jump, a stop is at eleven; and a jump behind the stop that has only one
byte of its target is an error at twelve. -/
theorem disassemble_walks_cutJump :
    disassemble #[0x44, 5, 0x6B, 7, 0, 0, 0, 0, 0, 0, 0] =
      .ok #[(0, .argument .add (.immediate (.integer .bits8 5))),
        (2, .word .jmp (some (.integer .bits64 7)))] ∧
    Covers #[(0, .argument .add (.immediate (.integer .bits8 5))),
      (2, .word .jmp (some (.integer .bits64 7)))] #[0x44, 5, 0x6B, 7, 0, 0, 0, 0, 0, 0, 0] ∧
    disassemble #[0x44, 5, 0x6B, 7, 0, 0, 0, 0, 0, 0, 0, 0] =
      .ok #[(0, .argument .add (.immediate (.integer .bits8 5))),
        (2, .word .jmp (some (.integer .bits64 7))), (11, .nullary .stop)] ∧
    disassemble #[0x44, 5, 0x6B, 7, 0, 0, 0, 0, 0, 0, 0, 0, 0x6B, 1] =
      .error (.malformedInstruction 12) := by
  have hjump : Walk 2 [0x6B, 7, 0, 0, 0, 0, 0, 0, 0] [(2, .word .jmp (some (.integer .bits64 7)))]
      11 [] := .step (d := ⟨_, 9, _⟩) rfl (.refl 11 [])
  have hfirst : disassemble #[0x44, 5, 0x6B, 7, 0, 0, 0, 0, 0, 0, 0] =
      .ok #[(0, .argument .add (.immediate (.integer .bits8 5))),
        (2, .word .jmp (some (.integer .bits64 7)))] :=
    Walk.disassemble_of_nil (.step (d := ⟨_, 2, _⟩) rfl hjump)
  have hstop : disassemble #[0] = .ok #[(0, .nullary .stop)] :=
    Walk.disassemble_of_nil (.step (d := ⟨_, 1, _⟩) rfl (.refl 1 []))
  have hcut : disassemble #[0, 0x6B, 1] = .error (.malformedInstruction 1) :=
    Walk.disassemble_of_error (.step rfl (.refl 1 [0x6B, 1])) (by decide) rfl
  obtain ⟨-, hjoined, -, hcovers⟩ := disassemble_walks
  refine ⟨hfirst, hcovers _ _ hfirst, ?_, ?_⟩
  · simpa [shifted] using (hjoined _ _ _ hfirst).1 _ hstop
  · simpa using (hjoined _ _ _ hfirst).2 _ hcut

end ImageLinker
