import ImageLinker.Proofs.Appended
import ImageLinker.Proofs.EntryPoints

/-!
# Blocks before they are linked

A block keeps its code and its fixups apart, and each of the two grows on its own. They belong
together only by what was written: the code is that of the instructions, one behind the other, and
the fixups are those of the instructions that name a symbol, in the same order. That the bytes of
two fixups never overlap, that they lie in the code and that they are zero follows from this, and
linking relies on it.

A request to write may be refused: an instruction does not pass the check, or a descriptor announces
a value that is not there. Then nothing has been written.

* `Block.Represents`: what code and fixups are for the instructions that were written.
* `Block.Holds.represents`: a block into which instructions were written is of this form.
* `WriteRequest`, `WriteRequest.exec_command`: one request, and what it does to a workspace.
* `Workspace.run_requests`: all requests to one block, one after the other.
* `openBlocks_represent`: a new block under any requests, and all open blocks of any session.
-/

namespace ImageLinker

/-! ## Code and fixups -/

/-- The fixup is that of the instruction at this address: it waits for the symbol that the
instruction names, and for its last eight bytes. -/
def Fixup.MadeBy (f : Fixup) (p : Nat × Instruction) : Prop :=
  p.2.symbol? = some f.symbol ∧ f.offset + addressSize = p.1 + p.2.encodedSize

/-- Code and fixups of a block into which exactly these instructions were written. -/
structure Block.Represents (b : Block) (is : List Instruction) : Prop where
  code : b.code.toList = is.flatMap Instruction.bytes
  /-- Each fixup is that of one instruction that names a symbol, in the same order. -/
  fixups : List.Forall₂ Fixup.MadeBy b.fixups.toList
    ((withAddresses 0 is).filter fun p => p.2.symbol?.isSome)
  /-- Between the bytes of two fixups there is at least an opcode byte. -/
  increasing : b.fixups.toList.Pairwise fun f g => f.offset + 9 ≤ g.offset
  /-- So there is in front of the first one. -/
  positive : ∀ f ∈ b.fixups, 1 ≤ f.offset
  within : ∀ f ∈ b.fixups, f.offset + addressSize ≤ b.code.size
  zeros : ∀ f ∈ b.fixups,
    (b.code.toList.drop f.offset).take addressSize = List.replicate addressSize 0

theorem codeAt_zero (is : List Instruction) :
    codeAt (fun _ => 0) is = is.flatMap Instruction.bytes := by
  unfold codeAt
  exact List.flatMap_congr fun i _ => i.bytesAt_zero

/-- Induction on the instructions: each has a fixup if and only if it names a symbol. -/
theorem forall₂_fixupsFrom (start : Nat) (is : List Instruction) :
    List.Forall₂ Fixup.MadeBy (fixupsFrom start is)
      ((withAddresses start is).filter fun p => p.2.symbol?.isSome) := by
  induction is generalizing start with
  | nil => exact .nil
  | cons i is ih =>
    rw [fixupsFrom, withAddresses, Instruction.fixup?_eq]
    cases hid : i.symbol? with
    | none =>
      rw [List.filter_cons_of_neg (by simp [hid])]
      exact ih (start + i.encodedSize)
    | some id =>
      have hsize := (Instruction.bytes_of_symbol? hid).2
      rw [List.filter_cons_of_pos (by simp [hid])]
      refine .cons ⟨hid, ?_⟩ (ih (start + i.encodedSize))
      show start + i.head.length + addressSize = start + i.encodedSize
      omega

/-- What waits for an address is zero. Induction on the instructions, with the code in front. -/
theorem zeros_of_mem_fixupsFrom (before : List UInt8) {is : List Instruction} {f : Fixup}
    (hf : f ∈ fixupsFrom before.length is) :
    ((before ++ is.flatMap Instruction.bytes).drop f.offset).take addressSize =
      List.replicate addressSize 0 := by
  induction is generalizing before with
  | nil => cases hf
  | cons i is ih =>
    rw [List.flatMap_cons]
    rcases List.mem_append.mp hf with hhere | hrest
    · rw [Instruction.fixup?_eq, Option.mem_toList] at hhere
      obtain ⟨id, hid, rfl⟩ := Option.map_eq_some_iff.mp hhere
      have hfront : (before ++ i.head).length = before.length + i.head.length :=
        List.length_append
      rw [(Instruction.bytes_of_symbol? hid).1, List.append_assoc i.head, ← List.append_assoc,
        List.drop_left' hfront, List.take_left' List.length_replicate]
    · have hlength : before.length + i.encodedSize = (before ++ i.bytes).length := by
        rw [List.length_append, Instruction.length_bytes]
      rw [hlength] at hrest
      rw [← List.append_assoc]
      exact ih _ hrest

/-- **A block is what was written into it.** -/
theorem Block.Holds.represents {b : Block} {is : List Instruction} (h : b.Holds is) :
    b.Represents is := by
  have hcode : b.code.toList = is.flatMap Instruction.bytes := by rw [h.code_eq, codeAt_zero]
  have hmem : ∀ f ∈ b.fixups, f ∈ fixupsFrom 0 is := by
    intro f hf
    rw [← h.fixups_eq]
    exact Array.mem_toList_iff.mpr hf
  constructor
  case code => exact hcode
  case fixups =>
    rw [h.fixups_eq]
    exact forall₂_fixupsFrom 0 is
  case increasing =>
    rw [h.fixups_eq]
    exact fixupsFrom_pairwise 0 is
  case positive => exact fun f hf => (fixupsFrom_bounds (hmem f hf)).1
  case within =>
    intro f hf
    have hend := (fixupsFrom_bounds (hmem f hf)).2
    rwa [Nat.zero_add, ← h.size_eq] at hend
  case zeros =>
    intro f hf
    rw [hcode]
    exact zeros_of_mem_fixupsFrom [] (hmem f hf)

/-! ## One request -/

/-- A request to write into a block: an instruction, which is checked, or a call of an entry
point. -/
inductive WriteRequest where
  | emit (i : Instruction)
  | call (entry : Entry)

namespace WriteRequest

/-- The instruction that is to be written. -/
def instruction : WriteRequest → Instruction
  | emit i => i
  | call entry => entry.instruction

/-- The answer to the request: the block with the instruction in it, or a refusal. -/
def perform (b : Block) : WriteRequest → Except Refusal Block
  | emit i => (b.emit i).mapError .error
  | call entry => (b.call entry).mapError .fault

/-- The request as a command, with the names of the function and of the handle of the block. -/
def command (function ref : String) : WriteRequest → Command
  | emit i => .emit function ref i 1
  | call entry => .call function ref entry 1

end WriteRequest

/-- What an entry point requires is what the check would refuse. -/
theorem Entry.check?_eq_none_iff {entry : Entry} :
    entry.instruction.check? = none ↔ entry.require = .ok () := by
  refine ⟨fun hcheck => ?_, Entry.check?_instruction⟩
  cases entry with
  | source op descriptor =>
    have hshape : op.val.shape = .argument := op.property
    cases hi : descriptor.isImmediate with
    | false => exact Source.requireExplicit_of_not hi
    | true => simp [instruction, Instruction.check?, Instruction.operation, Instruction.shape,
        hshape, hi] at hcheck
  | _ => rfl

namespace WriteRequest

/-- Whether a request is granted depends on its instruction alone, and no refusal ends a run. -/
theorem perform_cases (q : WriteRequest) :
    (q.instruction.check? = none ∧ ∀ b, q.perform b = .ok (b.append q.instruction)) ∨
      (q.instruction.check? ≠ none ∧
        ∃ e, (∀ fault, e ≠ Refusal.halt fault) ∧ ∀ b, q.perform b = .error e) := by
  cases q with
  | emit i =>
    cases hcheck : i.check? with
    | none =>
      refine .inl ⟨hcheck, fun b => ?_⟩
      rw [perform, Block.emit_of_check hcheck]
      rfl
    | some e =>
      refine .inr ⟨by simp [instruction, hcheck], .error e, by simp, fun b => ?_⟩
      rw [perform, Block.emit, hcheck]
      rfl
  | call entry =>
    cases hrequire : entry.require with
    | ok u =>
      refine .inl ⟨Entry.check?_eq_none_iff.mpr hrequire, fun b => ?_⟩
      rw [perform, Block.call_of_require hrequire]
      rfl
    | error fault =>
      refine .inr ⟨?_, .fault fault, by simp, fun b => ?_⟩
      · intro hcheck
        rw [Entry.check?_eq_none_iff.mp hcheck] at hrequire
        cases hrequire
      · rw [perform, Block.call_of_fault hrequire]
        rfl

end WriteRequest

/-! ## Workspaces -/

/-- The block behind the handle, which is open for writing. -/
def Workspace.HasOpenBlock (w : Workspace) (function ref : String) (b : Block) : Prop :=
  ∃ f r, w.functions.get? function = some f ∧ w.refs.get? ref = some r ∧ f.writableBlock r = .ok b

theorem Function.writableBlock_setBlock {f : Function} {r : BlockRef} {b : Block}
    (h : f.writableBlock r = .ok b) (b' : Block) : (f.setBlock r b').writableBlock r = .ok b' := by
  obtain ⟨hopen, hat⟩ := Session.writableBlock_eq_ok h
  have howns : f.owns r = true := by
    by_contra hother
    simp [writableBlock, block?, hopen, hother] at h
  have hlt : r.index < f.blocks.size := (List.getElem?_eq_some_iff.mp hat).1
  have hset : (f.setBlock r b').blocks[r.index]? = some b' := by simp [setBlock, hlt]
  have hopen' : (f.setBlock r b').linked = false := hopen
  have howns' : (f.setBlock r b').owns r = true := howns
  simp [writableBlock, block?, hopen', howns', hset]

namespace WriteRequest

variable {q : WriteRequest} {w w' : Workspace} {function ref : String} {b : Block}

theorem step_command (q : WriteRequest) (function ref : String) :
    (q.command function ref).step =
      discard (Workspace.writeBlock function ref q.instruction 1 q.perform) := by
  cases q <;> rfl

/-- What a request does to a workspace in which the block is open. -/
theorem exec_command {f : Function} {r : BlockRef} (q : WriteRequest)
    (hf : w.functions.get? function = some f) (hr : w.refs.get? ref = some r)
    (hblock : f.writableBlock r = .ok b) :
    (q.command function ref).step.exec w =
      match q.perform b with
      | .error e => (.error e, w)
      | .ok b' => (.ok (), { w with
          functions := w.functions.set function (f.setBlock r b')
          journal := w.journal.push (.encoded q.instruction) }) := by
  rw [step_command]
  cases hperform : q.perform b with
  | error e => simp [Workspace.writeBlock, Workspace.repeated, hr, hf, hblock, hperform,
      Except.mapError]
  | ok b' => simp [Workspace.writeBlock, Workspace.repeated, hr, hf, hblock, hperform,
      Except.mapError]

/-- A request that is refused leaves everything as it was, whatever the reason. -/
theorem eq_of_exec_error {e : Refusal}
    (h : (q.command function ref).step.exec w = (.error e, w')) : w' = w := by
  have hkept : ∀ e₁, (q.command function ref).step.exec w = (.error e₁, w) → w' = w :=
    fun e₁ hexec => (Prod.mk.inj (h.symm.trans hexec)).2
  cases hr : w.refs.get? ref with
  | none => exact hkept (.noSlot ref) (by simp [step_command, Workspace.writeBlock, hr])
  | some r =>
  cases hf : w.functions.get? function with
  | none => exact hkept (.noSlot function) (by simp [step_command, Workspace.writeBlock, hr, hf])
  | some f =>
  cases hblock : f.writableBlock r with
  | error e₁ =>
    apply hkept (.error e₁)
    simp [step_command, Workspace.writeBlock, hr, hf, hblock, Except.mapError]
  | ok b =>
    have hexec := exec_command q hf hr hblock
    cases hperform : q.perform b with
    | error e₁ => exact hkept e₁ (by rw [hexec, hperform])
    | ok b' =>
      rw [hperform, h] at hexec
      cases (Prod.mk.inj hexec).1

/-- A request that is granted appends its instruction to the block, which stays open. -/
theorem exec_of_granted (h : ∀ b, q.perform b = .ok (b.append q.instruction))
    (hb : w.HasOpenBlock function ref b) :
    ∃ w₁, (q.command function ref).step.exec w = (.ok (), w₁) ∧
      w₁.HasOpenBlock function ref (b.append q.instruction) := by
  obtain ⟨f, r, hf, hr, hblock⟩ := hb
  have hexec := exec_command q hf hr hblock
  rw [h b] at hexec
  exact ⟨_, hexec, f.setBlock r (b.append q.instruction), r, Slots.get?_set_self _ _ _, hr,
    Function.writableBlock_setBlock hblock _⟩

theorem exec_of_refused {e : Refusal} (h : ∀ b, q.perform b = .error e)
    (hb : w.HasOpenBlock function ref b) :
    (q.command function ref).step.exec w = (.error e, w) := by
  obtain ⟨f, r, hf, hr, hblock⟩ := hb
  rw [exec_command q hf hr hblock, h b]

end WriteRequest

/-! ## Many requests -/

theorem Workspace.run_cons_of_ok {α : Type} {step : Step α} {a : α} {w w₁ : Workspace}
    (h : step.exec w = (.ok a, w₁)) (rest : List (Step α)) :
    w.run (step :: rest) = ((w₁.run rest).1.map (.ok a :: ·), (w₁.run rest).2) := by
  rw [Workspace.run, show StateT.run (ExceptT.run step) w = _ from h]

theorem Workspace.run_cons_of_error {α : Type} {step : Step α} {e : Refusal} {w w₁ : Workspace}
    (h : step.exec w = (.error e, w₁)) (he : ∀ fault, e ≠ .halt fault) (rest : List (Step α)) :
    w.run (step :: rest) = ((w₁.run rest).1.map (.error e :: ·), (w₁.run rest).2) := by
  rw [Workspace.run, show StateT.run (ExceptT.run step) w = _ from h]
  cases e with
  | halt fault => exact absurd rfl (he fault)
  | noSlot name => rfl
  | error e => rfl
  | fault fault => rfl

/-- The instructions of the requests that were granted, in order. -/
def grantedInstructions (qs : List WriteRequest) (answers : List (Except Refusal Unit)) :
    List Instruction :=
  ((qs.zip answers).filter fun p => p.2.isOk).map fun p => p.1.instruction

/-- **Requests to one block.** Every request is answered, and it is granted exactly if its
instruction passes the check. The block then holds what was granted. Induction on the requests, with
what the block holds already. -/
theorem Workspace.run_requests {w : Workspace} {function ref : String} {b : Block}
    {is : List Instruction} (hb : w.HasOpenBlock function ref b) (hholds : b.Holds is)
    (qs : List WriteRequest) :
    ∃ answers w' b', w.run (qs.map fun q => (q.command function ref).step) = (.ok answers, w') ∧
      List.Forall₂ (fun q a => a.isOk ↔ q.instruction.check? = none) qs answers ∧
      w'.HasOpenBlock function ref b' ∧ b'.symbol = b.symbol ∧
      b'.Holds (is ++ grantedInstructions qs answers) := by
  induction qs generalizing w b is with
  | nil =>
    refine ⟨[], w, b, rfl, .nil, hb, rfl, ?_⟩
    rwa [grantedInstructions, List.zip_nil_left, List.filter_nil, List.map_nil, List.append_nil]
  | cons q qs ih =>
    rcases q.perform_cases with ⟨hcheck, hgranted⟩ | ⟨hcheck, e, hend, hrefused⟩
    · obtain ⟨w₁, hexec, hb₁⟩ := WriteRequest.exec_of_granted hgranted hb
      have hchecked : ∀ i ∈ [q.instruction], i.check? = none := by simpa using hcheck
      have hholds₁ : (b.append q.instruction).Holds (is ++ [q.instruction]) :=
        hholds.foldl_append hchecked
      obtain ⟨answers, w', b', hrun, hanswers, hb', hsymbol, hholds'⟩ := ih hb₁ hholds₁
      refine ⟨.ok () :: answers, w', b', ?_, .cons ?_ hanswers, hb', hsymbol, ?_⟩
      · rw [List.map_cons, run_cons_of_ok hexec, hrun]
        rfl
      · exact ⟨fun _ => hcheck, fun _ => rfl⟩
      · rw [List.append_assoc] at hholds'
        exact hholds'
    · have hexec := WriteRequest.exec_of_refused hrefused hb
      obtain ⟨answers, w', b', hrun, hanswers, hb', hsymbol, hholds'⟩ := ih hb hholds
      refine ⟨.error e :: answers, w', b', ?_, .cons ?_ hanswers, hb', hsymbol, hholds'⟩
      · rw [List.map_cons, run_cons_of_error hexec hend, hrun]
        rfl
      · refine ⟨fun hok => ?_, fun hnone => absurd hnone hcheck⟩
        cases hok

/-- **What a block is before it is linked.** A new block, whatever is asked to be written into it,
represents the instructions that were granted; these are the ones that pass the check, and a request
that is refused changes nothing. A value that only lends its width leaves no fixup, even if it is a
symbol. In every session, all open blocks represent what was written into them. -/
theorem openBlocks_represent :
    (∀ (w : Workspace) (function ref : String) (id : SymbolId) (requests : List WriteRequest),
      w.HasOpenBlock function ref { symbol := id } →
      ∃ answers w' b,
        w.run (requests.map fun q => (q.command function ref).step) = (.ok answers, w') ∧
        List.Forall₂ (fun q a => a.isOk ↔ q.instruction.check? = none) requests answers ∧
        w'.HasOpenBlock function ref b ∧ b.symbol = id ∧
        b.Represents (grantedInstructions requests answers)) ∧
    (∀ (w w' : Workspace) (function ref : String) (q : WriteRequest) (e : Refusal),
      (q.command function ref).step.exec w = (.error e, w') → w' = w) ∧
    (∀ (b : Block) (op : Operation.OfShape .size) (value : Immediate),
      ∃ b', b.call (.widthOf op value) = .ok b' ∧ b'.code.size = b.code.size + 1 ∧
        b'.fixups = b.fixups) ∧
    ∀ (cs : List Command) (slot : String) (f : Function),
      (Session.after cs).workspace.functions.get? slot = some f → f.linked = false →
      List.Forall₂ Block.Represents f.blocks.toList ((Session.after cs).textOf slot) := by
  refine ⟨?_, ?_, ?_, ?_⟩
  · intro w function ref id requests hnew
    obtain ⟨answers, w', b, hrun, hanswers, hb, hsymbol, hholds⟩ :=
      Workspace.run_requests hnew (.empty id) requests
    exact ⟨answers, w', b, hrun, hanswers, hb, hsymbol, hholds.represents⟩
  · intro w w' function ref q e h
    exact WriteRequest.eq_of_exec_error h
  · intro b op value
    refine ⟨_, Block.call_of_require rfl b, ?_, ?_⟩
    · rw [Block.code_append, ← Array.length_toList, Array.toList_appendList, List.length_append]
      rfl
    · rw [Block.fixups_append]
      exact Array.ext' (by simp [Entry.instruction, Instruction.fixup?_eq, Instruction.symbol?])
  · intro cs slot f hf hopen
    exact (Session.functionsSound_after cs slot f hf hopen).imp fun b is h => h.represents

/-- A session with one function that has one block. -/
def Session.newBlock : List Command :=
  [ .newBuilder "b" initialCapacity,
    .newFunction "b" "main" "main",
    .appendBlock "b" "main" "entry" ]

/-- Requests of which two are refused: a jump with a register in the place of its target, and a
descriptor that announces a value. A symbol is given three times, once only for its width. -/
def mixedRequests : List WriteRequest :=
  [ .emit (.nullary .dump),
    .emit (.register .jmp .usesLeft),
    .call (.jumpTo ⟨.jmp, rfl⟩ (.symbol ⟨7⟩)),
    .call (.source ⟨.add, rfl⟩ .i8),
    .call (.widthOf ⟨.loadIL, rfl⟩ (.symbol ⟨7⟩)),
    .call (.immediate ⟨.push, rfl⟩ (.symbol ⟨1⟩)) ]

/-- These requests as the end of a session. -/
def Session.mixedWrites : List Command :=
  newBlock ++ mixedRequests.map fun q => q.command "main" "entry"

/-- Four of the requests are granted, and there are fixups for two of them. -/
theorem openBlocks_represent_mixedRequests :
    (∃ answers w' b, (Session.after Session.newBlock).workspace.run
        (mixedRequests.map fun q => (q.command "main" "entry").step) = (.ok answers, w') ∧
      answers = [.ok (), .error (.error (.shapeMismatch .jmp .word .register)), .ok (),
        .error (.fault (.missingValue .i8)), .ok (), .ok ()] ∧
      w'.HasOpenBlock "main" "entry" b ∧
      b.Represents [.nullary .dump, .word .jmp (some (.symbol ⟨7⟩)), .size .loadIL .bits64,
        .argument .push (.immediate (.symbol ⟨1⟩))]) ∧
    ∃ f, (Session.after Session.mixedWrites).workspace.functions.get? "main" = some f ∧
      f.linked = false ∧ f.fixups = [⟨⟨7⟩, 2⟩, ⟨⟨1⟩, 12⟩] ∧
      List.Forall₂ Block.Represents f.blocks.toList [[.nullary .dump,
        .word .jmp (some (.symbol ⟨7⟩)), .size .loadIL .bits64,
        .argument .push (.immediate (.symbol ⟨1⟩))]] := by
  obtain ⟨hrequests, -, -, hsession⟩ := openBlocks_represent
  refine ⟨?_, ?_⟩
  · have hnew : (Session.after Session.newBlock).workspace.HasOpenBlock "main" "entry"
        { symbol := ⟨1⟩ } :=
      ⟨⟨"main", ⟨0⟩, ⟨0⟩, #[{ symbol := ⟨1⟩ }], false⟩, ⟨⟨0⟩, ⟨0⟩, 0, ⟨1⟩⟩, by decide +kernel,
        by decide +kernel, rfl⟩
    have hanswers : ((Session.after Session.newBlock).workspace.run
        (mixedRequests.map fun q => (q.command "main" "entry").step)).1 =
          .ok [.ok (), .error (.error (.shapeMismatch .jmp .word .register)), .ok (),
            .error (.fault (.missingValue .i8)), .ok (), .ok ()] := by
      decide +kernel
    obtain ⟨answers, w', b, hrun, -, hb, -, hrepresents⟩ := hrequests _ _ _ _ mixedRequests hnew
    rw [hrun] at hanswers
    cases hanswers
    exact ⟨_, w', b, hrun, rfl, hb, hrepresents⟩
  · obtain ⟨f, hf⟩ : ∃ f,
        (Session.after Session.mixedWrites).workspace.functions.get? "main" = some f :=
      Option.isSome_iff_exists.mp (by decide +kernel)
    have hmain : ((Session.after Session.mixedWrites).workspace.functions.get? "main").map
        (fun f => (f.linked, f.fixups)) = some (false, [⟨⟨7⟩, 2⟩, ⟨⟨1⟩, 12⟩]) := by
      decide +kernel
    have htext : (Session.after Session.mixedWrites).textOf "main" = [[.nullary .dump,
        .word .jmp (some (.symbol ⟨7⟩)), .size .loadIL .bits64,
        .argument .push (.immediate (.symbol ⟨1⟩))]] := by
      decide +kernel
    rw [hf, Option.map_some, Option.some.injEq, Prod.mk.injEq] at hmain
    have hblocks := hsession _ _ f hf hmain.1
    rw [htext] at hblocks
    exact ⟨f, hf, hmain.1, hmain.2, hblocks⟩

end ImageLinker
