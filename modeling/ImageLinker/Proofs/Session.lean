import ImageLinker.Proofs.LinkedImage
import ImageLinker.Workspace

/-!
# Sessions

A session is a run of commands on a workspace: builders are made, functions are made, copied,
written and linked in any order, and commands may be refused. Beside the workspace, a session keeps
a record that the workspace itself does not need: which instructions were written into the blocks
of each function, and which functions were linked, as they were at that moment.

* `Command`, `Command.step`: what can be done to a workspace. One thing is left out: a block that is
  open for writing can also be replaced as a whole, by a block of any function. That step stands on
  top of sessions (`Edit`), and not all that holds of sessions holds with it.
* `Session.after cs`: the session after the commands `cs`. Its workspace is the one that
  `Workspace.run` leaves (`Session.workspace_after`).
* `Session.Change`: what one command can do to a session; `Session.step_change` says that there is
  nothing else, so that an invariant is kept by all commands if it is kept by these changes.
-/

namespace ImageLinker

/-! ## Steps of a workspace -/

namespace Step

variable {α β : Type}

/-- What a step answers, and the workspace that it leaves. -/
def exec (step : Step α) (w : Workspace) : Except Refusal α × Workspace :=
  StateT.run (ExceptT.run step) w

@[simp] theorem exec_pure (a : α) (w : Workspace) : (pure a : Step α).exec w = (.ok a, w) := rfl

@[simp] theorem exec_throw (r : Refusal) (w : Workspace) :
    (throw r : Step α).exec w = (.error r, w) := rfl

@[simp] theorem exec_get (w : Workspace) : (get : Step Workspace).exec w = (.ok w, w) := rfl

@[simp] theorem exec_modify (f : Workspace → Workspace) (w : Workspace) :
    (modify f : Step Unit).exec w = (.ok (), f w) := rfl

/-- A refusal ends a step, and what was changed before it stays. -/
@[simp] theorem exec_bind (x : Step α) (k : α → Step β) (w : Workspace) :
    (x >>= k).exec w =
      match x.exec w with
      | (.ok a, w) => (k a).exec w
      | (.error r, w) => (.error r, w) := by
  change StateT.bind x (ExceptT.bindCont k) w = _
  simp only [exec, ExceptT.run, StateT.run, StateT.bind, bind]
  cases x w with
  | mk r w' => cases r <;> rfl

@[simp] theorem exec_map (x : Step α) (g : α → β) (w : Workspace) :
    (g <$> x).exec w =
      match x.exec w with
      | (.ok a, w) => (.ok (g a), w)
      | (.error r, w) => (.error r, w) := by
  rw [map_eq_pure_bind, exec_bind]
  rfl

@[simp] theorem exec_discard (x : Step α) (w : Workspace) :
    (discard x).exec w =
      match x.exec w with
      | (.ok _, w) => (.ok (), w)
      | (.error r, w) => (.error r, w) :=
  exec_map x (fun _ => ()) w

/-- Looking something up changes nothing. -/
@[simp] theorem exec_found (name : String) (found : Option α) (w : Workspace) :
    (Step.found name found).exec w =
      match found with
      | some a => (.ok a, w)
      | none => (.error (.noSlot name), w) := by
  cases found <;> rfl

@[simp] theorem exec_ofRefusal (result : Except Refusal α) (w : Workspace) :
    (Step.ofRefusal result).exec w = (result, w) := by
  cases result <;> rfl

@[simp] theorem exec_ofError (result : Except BuildError α) (w : Workspace) :
    (Step.ofError result).exec w = (result.mapError .error, w) := by
  cases result <;> rfl

@[simp] theorem exec_ofFault (result : Except Fault α) (w : Workspace) :
    (Step.ofFault result).exec w = (result.mapError .halt, w) := by
  cases result <;> rfl

/-- The refusal that reports a failure. -/
def refusal : Failure → Refusal
  | .error e => .error e
  | .fault f => .halt f

@[simp] theorem exec_ofFailure (result : Except Failure α) (w : Workspace) :
    (Step.ofFailure result).exec w = (result.mapError refusal, w) := by
  cases result with
  | ok a => rfl
  | error e => cases e <;> rfl

@[simp] theorem exec_record (events : Array Event) (w : Workspace) :
    (Step.record events).exec w = (.ok (), { w with journal := w.journal ++ events }) := rfl

end Step

/-! ## Looking up and putting back -/

namespace Workspace

variable (name : String) (w : Workspace)

@[simp] theorem exec_builderAt :
    (builderAt name).exec w = (Step.found name (w.builders.get? name)).exec w := rfl

@[simp] theorem exec_functionAt :
    (functionAt name).exec w = (Step.found name (w.functions.get? name)).exec w := rfl

@[simp] theorem exec_refAt :
    (refAt name).exec w = (Step.found name (w.refs.get? name)).exec w := rfl

@[simp] theorem exec_imageAt :
    (imageAt name).exec w = (Step.found name (w.images.get? name)).exec w := rfl

@[simp] theorem exec_machineAt :
    (machineAt name).exec w = (Step.found name (w.machines.get? name)).exec w := rfl

@[simp] theorem exec_setBuilder (b : Builder) :
    (setBuilder name b).exec w = (.ok (), { w with builders := w.builders.set name b }) := rfl

@[simp] theorem exec_setFunction (f : Function) :
    (setFunction name f).exec w = (.ok (), { w with functions := w.functions.set name f }) := rfl

@[simp] theorem exec_setRef (r : BlockRef) :
    (setRef name r).exec w = (.ok (), { w with refs := w.refs.set name r }) := rfl

@[simp] theorem exec_setImage (image : Image) :
    (setImage name image).exec w = (.ok (), { w with images := w.images.set name image }) := rfl

@[simp] theorem exec_setMachine (m : Machine) :
    (setMachine name m).exec w = (.ok (), { w with machines := w.machines.set name m }) := rfl

end Workspace

/-! ## Commands -/

/-- Something that can be done to a workspace. Names are those of slots, except for the names of
functions and globals. A block is only ever written; to put another block in its place is not a
command. -/
inductive Command where
  | newBuilder (slot : String) (capacity : Nat)
  | newFunction (builder name slot : String)
  | copyFunction (function slot : String)
  | appendBlock (builder function slot : String)
  | emit (function ref : String) (i : Instruction) (times : Nat)
  | call (function ref : String) (entry : Entry) (times : Nat)
  | link (builder function : String)
  | addGlobal (builder name : String)
  | appendToGlobal (builder name : String) (bytes : List UInt8)
  | encodeGlobal (builder name : String) (i : Instruction)
  | finish (builder slot : String)
  | newMachine (code : Code) (slot : String)
  | loadImage (image slot : String)
  | setRegister (machine : String) (register : Register) (value : UInt64)
  | growStack (machine : String) (added : Addition)
  | growHeap (machine : String) (added : Addition)

/-- The step that a command takes. -/
def Command.step : Command → Step Unit
  | newBuilder slot capacity => discard (Workspace.newBuilder slot capacity)
  | newFunction builder name slot => discard (Workspace.newFunction builder name slot)
  | copyFunction function slot => Workspace.copyFunction function slot
  | appendBlock builder function slot => discard (Workspace.appendBlock builder function slot)
  | emit function ref i times => discard (Workspace.emit function ref i times)
  | call function ref entry times => discard (Workspace.call function ref entry times)
  | link builder function => discard (Workspace.link builder function)
  | addGlobal builder name => discard (Workspace.addGlobal builder name)
  | appendToGlobal builder name bytes => discard (Workspace.appendToGlobal builder name bytes)
  | encodeGlobal builder name i => discard (Workspace.encodeGlobal builder name i)
  | finish builder slot => discard (Workspace.finish builder slot)
  | newMachine code slot => discard (Workspace.newMachine code slot)
  | loadImage image slot => discard (Workspace.loadImage image slot)
  | setRegister machine register value => Workspace.setRegister machine register value
  | growStack machine added => discard (Workspace.growStack machine added)
  | growHeap machine added => discard (Workspace.growHeap machine added)

/-! ## Sessions -/

/-- A workspace with the record of how it came about. -/
structure Session where
  workspace : Workspace := {}
  /-- For each function, the instructions that were written into its blocks. -/
  texts : Slots (List (List Instruction)) := {}
  /-- The functions that were linked, in order. -/
  linked : List LinkedFunction := []

namespace Session

/-- The instructions that were written into the blocks of a function. -/
def textOf (s : Session) (function : String) : List (List Instruction) :=
  (s.texts.get? function).getD []

/-- Notes that instructions were written into the block behind a handle. -/
def noteWritten (s : Session) (function ref : String) (is : List Instruction) : Session :=
  match s.workspace.refs.get? ref with
  | none => s
  | some r =>
    { s with texts := s.texts.set function ((s.textOf function).modify r.index (· ++ is)) }

/-- Notes a command that went through, in the session before it. -/
def note (s : Session) : Command → Session
  | .newFunction _ _ slot => { s with texts := s.texts.set slot [] }
  | .copyFunction function slot => { s with texts := s.texts.set slot (s.textOf function) }
  | .appendBlock _ function _ =>
    { s with texts := s.texts.set function (s.textOf function ++ [[]]) }
  | .emit function ref i times => s.noteWritten function ref (List.replicate times i)
  | .call function ref entry times =>
    s.noteWritten function ref (List.replicate times entry.instruction)
  | .link _ function =>
    match s.workspace.functions.get? function with
    | none => s
    | some f => { s with linked := s.linked ++ [⟨f, s.textOf function⟩] }
  | _ => s

/-- Carries a command out. What is refused is not noted, but it may have changed the workspace. -/
def step (s : Session) (c : Command) : Session :=
  match c.step.exec s.workspace with
  | (.ok _, w) => { s.note c with workspace := w }
  | (.error _, w) => { s with workspace := w }

/-- The session after commands, from an empty workspace on. -/
def after (cs : List Command) : Session :=
  cs.foldl step {}

/-- The functions that were linked into a builder, in order. -/
def linkedInto (s : Session) (id : BuilderId) : List LinkedFunction :=
  s.linked.filter fun l => l.value.builder = id

/-! ## What a command can do -/

/-- What one command can do to a session. Images, machines and the journal are left open, since
nothing here depends on them. -/
inductive Change (s : Session) : Session → Prop where
  /-- Builders and functions stay as they are. -/
  | aside (images : Slots Image) (machines : Slots Machine) (journal : Array Event) :
    Change s { s with workspace := { s.workspace with images, machines, journal } }
  | builderMade (slot : String) :
    Change s { s with
      workspace := { s.workspace with
        builderCount := s.workspace.builderCount + 1
        builders := s.workspace.builders.set slot { id := ⟨s.workspace.builderCount⟩ } } }
  | functionMade {builder name : String} {b b' : Builder} {f : Function} (slot : String)
    (hb : s.workspace.builders.get? builder = some b) (h : b.newFunction name = (.ok f, b')) :
    Change s { s with
      workspace := { s.workspace with
        builders := s.workspace.builders.set builder b'
        functions := s.workspace.functions.set slot f }
      texts := s.texts.set slot [] }
  | functionRefused {builder name : String} {b b' : Builder} {e : BuildError}
    (hb : s.workspace.builders.get? builder = some b) (h : b.newFunction name = (.error e, b')) :
    Change s { s with
      workspace := { s.workspace with builders := s.workspace.builders.set builder b' } }
  | functionCopied {function : String} {f : Function} (slot : String)
    (hf : s.workspace.functions.get? function = some f) :
    Change s { s with
      workspace := { s.workspace with functions := s.workspace.functions.set slot f }
      texts := s.texts.set slot (s.textOf function) }
  | blockMade {builder function : String} {b b' : Builder} {f f' : Function} {r : BlockRef}
    (slot : String) (hb : s.workspace.builders.get? builder = some b)
    (hf : s.workspace.functions.get? function = some f)
    (h : b.appendBlock f = (.ok (r, f'), b')) :
    Change s { s with
      workspace := { s.workspace with
        builders := s.workspace.builders.set builder b'
        functions := s.workspace.functions.set function f'
        refs := s.workspace.refs.set slot r }
      texts := s.texts.set function (s.textOf function ++ [[]]) }
  | blockRefused {builder function : String} {b b' : Builder} {f : Function} {e : Failure}
    (hb : s.workspace.builders.get? builder = some b)
    (hf : s.workspace.functions.get? function = some f) (h : b.appendBlock f = (.error e, b')) :
    Change s { s with
      workspace := { s.workspace with builders := s.workspace.builders.set builder b' } }
  /-- Instructions that pass the check were written into an open block. -/
  | written {function ref : String} {f : Function} {r : BlockRef} {block : Block}
    (is : List Instruction) (journal : Array Event)
    (hf : s.workspace.functions.get? function = some f)
    (hr : s.workspace.refs.get? ref = some r) (hblock : f.writableBlock r = .ok block)
    (hchecked : ∀ i ∈ is, i.check? = none) :
    Change s { s with
      workspace := { s.workspace with
        functions := s.workspace.functions.set function
          (f.setBlock r (is.foldl Block.append block))
        journal }
      texts := s.texts.set function ((s.textOf function).modify r.index (· ++ is)) }
  | linked {builder function : String} {b b' : Builder} {f f' : Function} (journal : Array Event)
    (hb : s.workspace.builders.get? builder = some b)
    (hf : s.workspace.functions.get? function = some f) (h : b.link f = .ok (b', f')) :
    Change s { s with
      workspace := { s.workspace with
        builders := s.workspace.builders.set builder b'
        functions := s.workspace.functions.set function f'
        journal }
      linked := s.linked ++ [⟨f, s.textOf function⟩] }
  | globalsChanged {builder : String} {b : Builder} (globals : Array Global)
    (journal : Array Event) (hb : s.workspace.builders.get? builder = some b) :
    Change s { s with
      workspace := { s.workspace with
        builders := s.workspace.builders.set builder { b with globals }
        journal } }
  | finished (builder : String) (images : Slots Image) (journal : Array Event) :
    Change s { s with
      workspace := { s.workspace with
        builders := s.workspace.builders.erase builder
        images
        journal } }

theorem Change.none (s : Session) : Change s s :=
  .aside s.workspace.images s.workspace.machines s.workspace.journal

/-- Repeated writing of an instruction is writing it as often. Induction on the number of times. -/
theorem repeated_eq_ok {ε : Type} {write : Block → Except ε Block} {i : Instruction}
    (hwrite : ∀ {b b'}, write b = .ok b' → b' = b.append i ∧ i.check? = none) {n : Nat}
    {b b' : Block} (h : Workspace.repeated write n b = .ok b') :
    b' = (List.replicate n i).foldl Block.append b ∧
      ∀ j ∈ List.replicate n i, j.check? = none := by
  induction n generalizing b with
  | zero =>
    cases h
    simp
  | succ n ih =>
    unfold Workspace.repeated at h
    cases hb : write b with
    | error e => simp [hb] at h
    | ok b₁ =>
      obtain ⟨rfl, hcheck⟩ := hwrite hb
      rw [hb] at h
      obtain ⟨hb', -⟩ := ih h
      refine ⟨by rw [List.replicate_succ, List.foldl_cons, hb'], ?_⟩
      intro j hj
      rw [List.eq_of_mem_replicate hj, hcheck]

section Commands

variable {s : Session} {c : Command} {w : Workspace}

theorem step_of_ok (h : c.step.exec s.workspace = (.ok (), w)) :
    s.step c = { s.note c with workspace := w } := by
  simp [step, h]

theorem step_of_refusal {r : Refusal} (h : c.step.exec s.workspace = (.error r, w)) :
    s.step c = { s with workspace := w } := by
  simp [step, h]

theorem change_of_refusal {r : Refusal} (h : c.step.exec s.workspace = (.error r, s.workspace)) :
    Change s (s.step c) := by
  rw [step_of_refusal h]
  exact .none s

/-- A command of which nothing is noted. -/
theorem change_of_workspace (hnote : s.note c = s) (hexec : (c.step.exec s.workspace).2 = w)
    (h : Change s { s with workspace := w }) : Change s (s.step c) := by
  rcases hresult : c.step.exec s.workspace with ⟨result, w'⟩
  rw [hresult] at hexec
  subst hexec
  cases result with
  | ok u =>
    rw [step_of_ok hresult, hnote]
    exact h
  | error r =>
    rw [step_of_refusal hresult]
    exact h

section Link

variable {builder function : String} {b b' : Builder} {f f' : Function}

/-- A link that is refused changes nothing at all. -/
theorem step_link_of_error {e : Failure} (hb : s.workspace.builders.get? builder = some b)
    (hf : s.workspace.functions.get? function = some f) (h : b.link f = .error e) :
    s.step (.link builder function) = s := by
  have hexec : (Command.link builder function).step.exec s.workspace =
      (.error (Step.refusal e), s.workspace) := by
    simp [Command.step, Workspace.link, hb, hf, h, Except.mapError]
  rw [step_of_refusal hexec]

theorem step_link_of_ok (hb : s.workspace.builders.get? builder = some b)
    (hf : s.workspace.functions.get? function = some f) (h : b.link f = .ok (b', f')) :
    s.step (.link builder function) = { s with
      workspace := { s.workspace with
        builders := s.workspace.builders.set builder b'
        functions := s.workspace.functions.set function f'
        journal := s.workspace.journal ++ (b.linkEvents f b').toArray }
      linked := s.linked ++ [⟨f, s.textOf function⟩] } := by
  have hexec : (Command.link builder function).step.exec s.workspace = (.ok (), {
      s.workspace with
      builders := s.workspace.builders.set builder b'
      functions := s.workspace.functions.set function f'
      journal := s.workspace.journal ++ (b.linkEvents f b').toArray }) := by
    simp [Command.step, Workspace.link, hb, hf, h, Except.mapError]
  rw [step_of_ok hexec, note, hf]

end Link

variable (s)

theorem step_newBuilder (slot : String) (capacity : Nat) :
    Change s (s.step (.newBuilder slot capacity)) := by
  by_cases hfits : capacity ≤ maxCapacity
  · have hexec : (Command.newBuilder slot capacity).step.exec s.workspace = (.ok (), {
        s.workspace with
        builderCount := s.workspace.builderCount + 1
        builders := s.workspace.builders.set slot { id := ⟨s.workspace.builderCount⟩ } }) := by
      simp [Command.step, Workspace.newBuilder, Builder.reserving, hfits, Except.mapError]
    rw [step_of_ok hexec]
    exact .builderMade slot
  · apply change_of_refusal (r := .halt (.capacityExceeded capacity))
    simp [Command.step, Workspace.newBuilder, Builder.reserving, hfits, Except.mapError]

theorem step_newFunction (builder name slot : String) :
    Change s (s.step (.newFunction builder name slot)) := by
  cases hb : s.workspace.builders.get? builder with
  | none =>
    apply change_of_refusal (r := .noSlot builder)
    simp [Command.step, Workspace.newFunction, hb]
  | some b =>
    -- The builder is put back even when the function is refused: its symbol may be there already.
    rcases h : b.newFunction name with ⟨result, b'⟩
    cases result with
    | error e =>
      have hexec : (Command.newFunction builder name slot).step.exec s.workspace =
          (.error (.error e),
            { s.workspace with builders := s.workspace.builders.set builder b' }) := by
        simp [Command.step, Workspace.newFunction, hb, h, Except.mapError]
      rw [step_of_refusal hexec]
      exact .functionRefused hb h
    | ok f =>
      have hexec : (Command.newFunction builder name slot).step.exec s.workspace = (.ok (), {
          s.workspace with
          builders := s.workspace.builders.set builder b'
          functions := s.workspace.functions.set slot f }) := by
        simp [Command.step, Workspace.newFunction, hb, h, Except.mapError]
      rw [step_of_ok hexec]
      exact .functionMade slot hb h

theorem step_copyFunction (function slot : String) :
    Change s (s.step (.copyFunction function slot)) := by
  cases hf : s.workspace.functions.get? function with
  | none =>
    apply change_of_refusal (r := .noSlot function)
    simp [Command.step, Workspace.copyFunction, hf]
  | some f =>
    have hexec : (Command.copyFunction function slot).step.exec s.workspace =
        (.ok (), { s.workspace with functions := s.workspace.functions.set slot f }) := by
      simp [Command.step, Workspace.copyFunction, hf]
    rw [step_of_ok hexec]
    exact .functionCopied slot hf

theorem step_appendBlock (builder function slot : String) :
    Change s (s.step (.appendBlock builder function slot)) := by
  cases hb : s.workspace.builders.get? builder with
  | none =>
    apply change_of_refusal (r := .noSlot builder)
    simp [Command.step, Workspace.appendBlock, hb]
  | some b =>
  cases hf : s.workspace.functions.get? function with
  | none =>
    apply change_of_refusal (r := .noSlot function)
    simp [Command.step, Workspace.appendBlock, hb, hf]
  | some f =>
    rcases h : b.appendBlock f with ⟨result, b'⟩
    cases result with
    | error e =>
      have hexec : (Command.appendBlock builder function slot).step.exec s.workspace =
          (.error (Step.refusal e),
            { s.workspace with builders := s.workspace.builders.set builder b' }) := by
        simp [Command.step, Workspace.appendBlock, hb, hf, h, Except.mapError]
      rw [step_of_refusal hexec]
      exact .blockRefused hb hf h
    | ok made =>
      have hexec : (Command.appendBlock builder function slot).step.exec s.workspace = (.ok (), {
          s.workspace with
          builders := s.workspace.builders.set builder b'
          functions := s.workspace.functions.set function made.2
          refs := s.workspace.refs.set slot made.1 }) := by
        simp [Command.step, Workspace.appendBlock, hb, hf, h, Except.mapError]
      rw [step_of_ok hexec]
      exact .blockMade slot hb hf h

/-- The two ways of writing differ in what they do to one block only. -/
theorem step_write {function ref : String} {i : Instruction} {times : Nat}
    (write : Block → Except Refusal Block)
    (hwrite : ∀ {b b'}, write b = .ok b' → b' = b.append i ∧ i.check? = none)
    (hstep : c.step = discard (Workspace.writeBlock function ref i times write))
    (hnote : s.note c = s.noteWritten function ref (List.replicate times i)) :
    Change s (s.step c) := by
  cases hr : s.workspace.refs.get? ref with
  | none =>
    apply change_of_refusal (r := .noSlot ref)
    simp [hstep, Workspace.writeBlock, hr]
  | some r =>
  cases hf : s.workspace.functions.get? function with
  | none =>
    apply change_of_refusal (r := .noSlot function)
    simp [hstep, Workspace.writeBlock, hr, hf]
  | some f =>
  cases hblock : f.writableBlock r with
  | error e =>
    apply change_of_refusal (r := .error e)
    simp [hstep, Workspace.writeBlock, hr, hf, hblock, Except.mapError]
  | ok block =>
  -- A write that fails on the way leaves no trace, so either all of it happened or nothing did.
  cases hrepeat : Workspace.repeated write times block with
  | error e =>
    apply change_of_refusal (r := e)
    simp [hstep, Workspace.writeBlock, hr, hf, hblock, hrepeat, Except.mapError]
  | ok block' =>
    obtain ⟨rfl, hchecked⟩ := repeated_eq_ok hwrite hrepeat
    have hexec : c.step.exec s.workspace = (.ok (), {
        s.workspace with
        functions := s.workspace.functions.set function
          (f.setBlock r ((List.replicate times i).foldl Block.append block))
        journal := s.workspace.journal ++ Array.replicate times (Event.encoded i) }) := by
      simp [hstep, Workspace.writeBlock, hr, hf, hblock, hrepeat, Except.mapError]
    rw [step_of_ok hexec, hnote, noteWritten, hr]
    exact .written _ _ hf hr hblock hchecked

theorem step_emit (function ref : String) (i : Instruction) (times : Nat) :
    Change s (s.step (.emit function ref i times)) := by
  refine step_write s (fun block => (block.emit i).mapError .error) ?_ rfl rfl
  intro b b' h
  apply Block.emit_eq_ok
  cases he : b.emit i with
  | error e => simp [he, Except.mapError] at h
  | ok b₁ => simpa [he, Except.mapError] using h

theorem step_call (function ref : String) (entry : Entry) (times : Nat) :
    Change s (s.step (.call function ref entry times)) := by
  refine step_write s (fun block => (block.call entry).mapError .fault) ?_ rfl rfl
  intro b b' h
  apply Block.call_eq_ok
  cases he : b.call entry with
  | error e => simp [he, Except.mapError] at h
  | ok b₁ => simpa [he, Except.mapError] using h

theorem step_link (builder function : String) : Change s (s.step (.link builder function)) := by
  cases hb : s.workspace.builders.get? builder with
  | none =>
    apply change_of_refusal (r := .noSlot builder)
    simp [Command.step, Workspace.link, hb]
  | some b =>
  cases hf : s.workspace.functions.get? function with
  | none =>
    apply change_of_refusal (r := .noSlot function)
    simp [Command.step, Workspace.link, hb, hf]
  | some f =>
  cases h : b.link f with
  | error e =>
    rw [step_link_of_error hb hf h]
    exact .none s
  | ok result =>
    rw [step_link_of_ok hb hf h]
    exact .linked _ hb hf h

theorem step_addGlobal (builder name : String) :
    Change s (s.step (.addGlobal builder name)) := by
  cases hb : s.workspace.builders.get? builder with
  | none =>
    apply change_of_refusal (r := .noSlot builder)
    simp [Command.step, Workspace.addGlobal, hb]
  | some b =>
  cases hg : (b.global? name).isSome with
  | true =>
    apply change_of_refusal (r := .error (.duplicateSymbol name))
    simp [Command.step, Workspace.addGlobal, Builder.addGlobal, hb, hg, Except.mapError]
  | false =>
    refine change_of_workspace rfl ?_
      (.globalsChanged (b.globals.push { name }) s.workspace.journal hb)
    simp [Command.step, Workspace.addGlobal, Builder.addGlobal, hb, hg, Except.mapError]

theorem step_appendToGlobal (builder name : String) (bytes : List UInt8) :
    Change s (s.step (.appendToGlobal builder name bytes)) := by
  cases hb : s.workspace.builders.get? builder with
  | none =>
    apply change_of_refusal (r := .noSlot builder)
    simp [Command.step, Workspace.appendToGlobal, hb]
  | some b =>
  cases hg : b.global? name with
  | none =>
    refine change_of_workspace rfl ?_ (.none s)
    simp [Command.step, Workspace.appendToGlobal, hb, hg]
  | some g =>
    refine change_of_workspace rfl ?_
      (.globalsChanged (b.setGlobal { g with code := g.code ++ bytes }).globals
        s.workspace.journal hb)
    simp [Command.step, Workspace.appendToGlobal, hb, hg, Builder.setGlobal]

theorem step_encodeGlobal (builder name : String) (i : Instruction) :
    Change s (s.step (.encodeGlobal builder name i)) := by
  cases hb : s.workspace.builders.get? builder with
  | none =>
    apply change_of_refusal (r := .noSlot builder)
    simp [Command.step, Workspace.encodeGlobal, hb]
  | some b =>
  cases hg : b.global? name with
  | none =>
    refine change_of_workspace rfl ?_ (.none s)
    simp [Command.step, Workspace.encodeGlobal, hb, hg]
  | some g =>
  cases he : i.encode g.code with
  | error e =>
    apply change_of_refusal (r := .error e)
    simp [Command.step, Workspace.encodeGlobal, hb, hg, he, Except.mapError]
  | ok encoded =>
    refine change_of_workspace rfl ?_
      (.globalsChanged (b.setGlobal { g with code := encoded.1 }).globals
        (s.workspace.journal.push (.encoded i)) hb)
    simp [Command.step, Workspace.encodeGlobal, hb, hg, he, Except.mapError, Builder.setGlobal]

theorem step_finish (builder slot : String) : Change s (s.step (.finish builder slot)) := by
  cases hb : s.workspace.builders.get? builder with
  | none =>
    apply change_of_refusal (r := .noSlot builder)
    simp [Command.step, Workspace.finish, hb]
  | some b =>
  -- The builder is gone in both cases.
  cases h : b.finish with
  | error e =>
    refine change_of_workspace rfl ?_
      (.finished builder s.workspace.images s.workspace.journal)
    simp [Command.step, Workspace.finish, hb, h, Except.mapError]
  | ok image =>
    refine change_of_workspace rfl ?_
      (.finished builder (s.workspace.images.set slot image)
        (s.workspace.journal.push (.finished image.code.size image.symbols.size)))
    simp [Command.step, Workspace.finish, hb, h, Except.mapError]

theorem step_newMachine (code : Code) (slot : String) :
    Change s (s.step (.newMachine code slot)) := by
  refine change_of_workspace rfl ?_ (.aside s.workspace.images
    (s.workspace.machines.set slot { code }) s.workspace.journal)
  simp [Command.step, Workspace.newMachine]

theorem step_loadImage (image slot : String) : Change s (s.step (.loadImage image slot)) := by
  cases hi : s.workspace.images.get? image with
  | none =>
    apply change_of_refusal (r := .noSlot image)
    simp [Command.step, Workspace.loadImage, hi]
  | some loaded =>
    refine change_of_workspace rfl ?_ (.aside (s.workspace.images.erase image)
      (s.workspace.machines.set slot (Machine.ofImage loaded)) s.workspace.journal)
    simp [Command.step, Workspace.loadImage, hi]

/-- Whatever is done to a machine, it is put back into its slot or nothing happens. -/
theorem step_machine (machine : String) (hnote : s.note c = s)
    (hnone : s.workspace.machines.get? machine = none →
      (c.step.exec s.workspace).2 = s.workspace)
    (hsome : ∀ m, s.workspace.machines.get? machine = some m →
      (c.step.exec s.workspace).2 = s.workspace ∨
        ∃ m', (c.step.exec s.workspace).2 =
          { s.workspace with machines := s.workspace.machines.set machine m' }) :
    Change s (s.step c) := by
  cases hm : s.workspace.machines.get? machine with
  | none => exact change_of_workspace hnote (hnone hm) (.none s)
  | some m =>
    rcases hsome m hm with hsame | ⟨m', hset⟩
    · exact change_of_workspace hnote hsame (.none s)
    · exact change_of_workspace hnote hset (.aside _ _ _)

theorem step_setRegister (machine : String) (register : Register) (value : UInt64) :
    Change s (s.step (.setRegister machine register value)) := by
  refine step_machine s machine rfl (fun hm => ?_)
    fun m hm => .inr ⟨m.setRegister value register, ?_⟩
  · simp [Command.step, Workspace.setRegister, hm]
  · simp [Command.step, Workspace.setRegister, hm]

theorem step_growStack (machine : String) (added : Addition) :
    Change s (s.step (.growStack machine added)) := by
  refine step_machine s machine rfl (fun hm => ?_) fun m hm => ?_
  · simp [Command.step, Workspace.growStack, hm]
  · cases ha : added.appendTo m.stack with
    | error fault =>
      left
      simp [Command.step, Workspace.growStack, hm, ha, Except.mapError]
    | ok stack =>
      right
      refine ⟨{ m with stack }, ?_⟩
      simp [Command.step, Workspace.growStack, hm, ha, Except.mapError]

theorem step_growHeap (machine : String) (added : Addition) :
    Change s (s.step (.growHeap machine added)) := by
  refine step_machine s machine rfl (fun hm => ?_) fun m hm => ?_
  · simp [Command.step, Workspace.growHeap, hm]
  · cases ha : added.appendTo m.heap with
    | error fault =>
      left
      simp [Command.step, Workspace.growHeap, hm, ha, Except.mapError]
    | ok heap =>
      right
      refine ⟨{ m with heap }, ?_⟩
      simp [Command.step, Workspace.growHeap, hm, ha, Except.mapError]

/-- **What a command can do.** Every command brings about one of the changes. -/
theorem step_change (c : Command) : Change s (s.step c) := by
  cases c with
  | newBuilder slot capacity => exact step_newBuilder s slot capacity
  | newFunction builder name slot => exact step_newFunction s builder name slot
  | copyFunction function slot => exact step_copyFunction s function slot
  | appendBlock builder function slot => exact step_appendBlock s builder function slot
  | emit function ref i times => exact step_emit s function ref i times
  | call function ref entry times => exact step_call s function ref entry times
  | link builder function => exact step_link s builder function
  | addGlobal builder name => exact step_addGlobal s builder name
  | appendToGlobal builder name bytes => exact step_appendToGlobal s builder name bytes
  | encodeGlobal builder name i => exact step_encodeGlobal s builder name i
  | finish builder slot => exact step_finish s builder slot
  | newMachine code slot => exact step_newMachine s code slot
  | loadImage image slot => exact step_loadImage s image slot
  | setRegister machine register value => exact step_setRegister s machine register value
  | growStack machine added => exact step_growStack s machine added
  | growHeap machine added => exact step_growHeap s machine added

end Commands

/-- An invariant of all changes holds after all commands. -/
theorem after_induction {P : Session → Prop} (hstart : P {})
    (hchange : ∀ s s', P s → Change s s' → P s') (cs : List Command) : P (after cs) := by
  have hrun : ∀ s, P s → P (cs.foldl step s) := by
    induction cs with
    | nil => exact fun s hs => hs
    | cons c cs ih => exact fun s hs => ih _ (hchange s _ hs (step_change s c))
  exact hrun {} hstart

theorem workspace_step (s : Session) (c : Command) :
    (s.step c).workspace = (c.step.exec s.workspace).2 := by
  unfold step
  split <;> rename_i hexec <;> rw [hexec]

/-- A run ends at a command that halts; any other refusal is only noted as an answer. -/
theorem run_cons (w : Workspace) (c : Command) (cs : List Command) :
    (∃ f, (c.step.exec w).1 = .error (.halt f) ∧
      w.run ((c :: cs).map Command.step) = (.error f, (c.step.exec w).2)) ∨
    ∃ answer, w.run ((c :: cs).map Command.step) =
      (((c.step.exec w).2.run (cs.map Command.step)).1.map (answer :: ·),
        ((c.step.exec w).2.run (cs.map Command.step)).2) := by
  rw [List.map_cons, Workspace.run,
    show StateT.run (ExceptT.run c.step) w = c.step.exec w from rfl]
  rcases c.step.exec w with ⟨answer, w'⟩
  cases answer with
  | ok u => exact .inr ⟨.ok u, rfl⟩
  | error r =>
    cases r with
    | halt f => exact .inl ⟨f, rfl, rfl⟩
    | noSlot name => exact .inr ⟨.error (.noSlot name), rfl⟩
    | error e => exact .inr ⟨.error (.error e), rfl⟩
    | fault f => exact .inr ⟨.error (.fault f), rfl⟩

/-- The workspace of a session is the one that a run of its commands leaves. A run that ends early
has come as far as the command that halted. -/
theorem workspace_after (cs : List Command) :
    ∃ done rest, cs = done ++ rest ∧
      (Workspace.run {} (cs.map Command.step)).2 = (after done).workspace ∧
      ∀ answers, (Workspace.run {} (cs.map Command.step)).1 = .ok answers → rest = [] := by
  have hrun : ∀ s : Session, ∃ done rest, cs = done ++ rest ∧
      (s.workspace.run (cs.map Command.step)).2 = (done.foldl step s).workspace ∧
      ∀ answers, (s.workspace.run (cs.map Command.step)).1 = .ok answers → rest = [] := by
    induction cs with
    | nil => exact fun s => ⟨[], [], rfl, rfl, fun _ _ => rfl⟩
    | cons c cs ih =>
      intro s
      rcases run_cons s.workspace c cs with ⟨f, -, hrun⟩ | ⟨answer, hrun⟩
      · refine ⟨[c], cs, rfl, ?_, ?_⟩
        · rw [hrun, List.foldl_cons, List.foldl_nil, workspace_step]
        · intro answers hanswers
          rw [hrun] at hanswers
          cases hanswers
      · obtain ⟨done, rest, hcs, hworkspace, hend⟩ := ih (s.step c)
        rw [workspace_step] at hworkspace hend
        refine ⟨c :: done, rest, by rw [hcs, List.cons_append], ?_, ?_⟩
        · rw [hrun, List.foldl_cons]
          exact hworkspace
        · intro answers hanswers
          rw [hrun] at hanswers
          cases hrest : ((c.step.exec s.workspace).2.run (cs.map Command.step)).1 with
          | error f => simp [hrest, Except.map] at hanswers
          | ok as => exact hend as hrest
  exact hrun {}

end Session

end ImageLinker
