import ImageLinker.Proofs.HandledBlocks
import ImageLinker.Proofs.LinkFrame

/-!
# The log of an image

Every command of a session either links a function into the image of some builder or leaves all
images alone. So the writes of links, taken together, are a log that accounts for each image from
its first byte on. The log shows what no single state shows: that the eight bytes of a reference are
overwritten once at most. When they are, the symbol has its address, and so the reference does not
wait any more; and only what waits is overwritten.

* `Session.writesInto`: the log of a session, for one builder.
* `Session.Logged`: what ties the log to the builder, kept by every command (`Logged.of_link`,
  `Logged.of_writes_eq_nil`).
* `Session.link_frame`: the frame of every link, and that no byte is overwritten twice.
-/

namespace ImageLinker

theorem referencesOf_subset (ls : List LinkedFunction) (l : LinkedFunction) :
    referencesOf ls ⊆ referencesOf (ls ++ [l]) := by
  intro g hg
  have hblocks : blocksOf (ls ++ [l]) = blocksOf ls ++ l.value.blocks.toList := by simp [blocksOf]
  rw [referencesOf, hblocks, placedFrom_append, List.flatMap_append]
  exact List.mem_append_left _ hg

/-- No two references of linked functions share a byte. -/
theorem eq_of_covers {ls : List LinkedFunction} (h : ∀ l ∈ ls, l.value.Holds l.text) {f g : Fixup}
    (hf : f ∈ referencesOf ls) (hg : g ∈ referencesOf ls) {p : Nat} (hfp : f.Covers p)
    (hgp : g.Covers p) : f = g := by
  rw [referencesOf_of_holds h] at hf hg
  have hapart := List.pairwise_iff_getElem.mp (fixupsFrom_pairwise 0 (instructionsOf ls))
  unfold Fixup.Covers at hfp hgp
  obtain ⟨i, hi, rfl⟩ := List.getElem_of_mem hf
  obtain ⟨j, hj, rfl⟩ := List.getElem_of_mem hg
  rcases Nat.lt_trichotomy i j with hij | rfl | hij
  · have hbehind := hapart i j hi hj hij
    omega
  · rfl
  · have hbehind := hapart j i hj hi hij
    omega

/-! ## The log -/

namespace Session

variable {s s' : Session}

/-- The writes of a command to the image of a builder. -/
def writes (s : Session) (id : BuilderId) : Command → List ImageWrite
  | .link builder function =>
    match s.workspace.builders.get? builder, s.workspace.functions.get? function with
    | some b, some f =>
      match b.link f with
      | .ok (b', f') => if b.id = id then b.linkWrites b' f' else []
      | .error _ => []
    | _, _ => []
  | _ => []

/-- The writes of commands, from a session on. -/
def writesFrom (id : BuilderId) (s : Session) : List Command → List ImageWrite
  | [] => []
  | c :: cs => s.writes id c ++ writesFrom id (s.step c) cs

/-- All writes of a session to the image of a builder, in order. -/
def writesInto (cs : List Command) (id : BuilderId) : List ImageWrite :=
  writesFrom id {} cs

theorem writesInto_concat (cs : List Command) (c : Command) (id : BuilderId) :
    writesInto (cs ++ [c]) id = writesInto cs id ++ (after cs).writes id c := by
  have hrun : ∀ s : Session,
      writesFrom id s (cs ++ [c]) = writesFrom id s cs ++ (cs.foldl step s).writes id c := by
    induction cs with
    | nil => simp [writesFrom]
    | cons d cs ih => exact fun s => by simp [writesFrom, ih]
  exact hrun {}

/-! ## What commands do to images -/

/-- A command that adds nothing to the record of links leaves all images alone. -/
theorem Change.sameImage (h : Change s s') (hlinked : s'.linked = s.linked) {slot : String}
    {b' : Builder} (hb' : s'.workspace.builders.get? slot = some b') :
    b' = { id := ⟨s.workspace.builderCount⟩ } ∨
      ∃ b, s.workspace.builders.get? slot = some b ∧ b.SameImage b' := by
  have hset : ∀ {builder : String} {b b₁ : Builder},
      s.workspace.builders.get? builder = some b → b.SameImage b₁ →
      (s.workspace.builders.set builder b₁).get? slot = some b' →
      ∃ b, s.workspace.builders.get? slot = some b ∧ b.SameImage b' := by
    intro builder b b₁ hb hsame hget
    rw [Slots.get?_set] at hget
    split at hget
    · rename_i hslot
      cases hget
      exact ⟨b, by rw [hslot, hb], hsame⟩
    · exact ⟨b', hget, .refl b'⟩
  cases h with
  | aside => exact .inr ⟨b', hb', .refl b'⟩
  | builderMade made =>
    rw [Slots.get?_set] at hb'
    split at hb'
    · exact .inl (Option.some.inj hb').symm
    · exact .inr ⟨b', hb', .refl b'⟩
  | functionMade made hb h => exact .inr (hset hb (Builder.sameImage_newFunction h) hb')
  | functionRefused hb h => exact .inr (hset hb (Builder.sameImage_newFunction h) hb')
  | functionCopied => exact .inr ⟨b', hb', .refl b'⟩
  | blockMade made hb hf h => exact .inr (hset hb (Builder.sameImage_appendBlock h) hb')
  | blockRefused hb hf h => exact .inr (hset hb (Builder.sameImage_appendBlock h) hb')
  | written => exact .inr ⟨b', hb', .refl b'⟩
  | linked journal hb hf h =>
    have hlength := congrArg List.length hlinked
    simp at hlength
  | @globalsChanged builder b globals journal hb =>
    have hsame : b.SameImage { b with globals } :=
      ⟨rfl, rfl, rfl, fun _ => rfl, Symbols.Grows.refl _⟩
    exact .inr (hset hb hsame hb')
  | finished builder images journal =>
    rw [Slots.get?_erase] at hb'
    split at hb'
    · cases hb'
    · exact .inr ⟨b', hb', .refl b'⟩

theorem linked_noteWritten (s : Session) (function ref : String) (is : List Instruction) :
    (s.noteWritten function ref is).linked = s.linked := by
  unfold noteWritten
  split <;> rfl

theorem linked_note {c : Command} (h : ∀ builder function, c ≠ .link builder function) :
    (s.note c).linked = s.linked := by
  cases c with
  | link builder function => exact absurd rfl (h builder function)
  | emit function ref i times => exact linked_noteWritten s _ _ _
  | call function ref entry times => exact linked_noteWritten s _ _ _
  | _ => rfl

/-- A command is a link that succeeds, or it writes nothing and leaves the record of links alone. -/
theorem writes_cases (s : Session) (c : Command) :
    ((∀ id, s.writes id c = []) ∧ (s.step c).linked = s.linked) ∨
      ∃ builder function b b' f f', c = .link builder function ∧
        s.workspace.builders.get? builder = some b ∧
        s.workspace.functions.get? function = some f ∧ b.link f = .ok (b', f') ∧
        ∀ id, s.writes id c = if b.id = id then b.linkWrites b' f' else [] := by
  by_cases hlink : ∀ builder function, c ≠ .link builder function
  · left
    constructor
    · intro id
      cases c with
      | link builder function => exact absurd rfl (hlink builder function)
      | _ => rfl
    · unfold step
      split
      · exact linked_note hlink
      · rfl
  obtain ⟨builder, function, rfl⟩ : ∃ builder function, c = .link builder function := by
    simpa using hlink
  cases hb : s.workspace.builders.get? builder with
  | none =>
    left
    have hexec : (Command.link builder function).step.exec s.workspace =
        (.error (.noSlot builder), s.workspace) := by
      simp [Command.step, Workspace.link, hb]
    exact ⟨fun id => by simp [writes, hb], by rw [step_of_refusal hexec]⟩
  | some b =>
  cases hf : s.workspace.functions.get? function with
  | none =>
    left
    have hexec : (Command.link builder function).step.exec s.workspace =
        (.error (.noSlot function), s.workspace) := by
      simp [Command.step, Workspace.link, hb, hf]
    exact ⟨fun id => by simp [writes, hb, hf], by rw [step_of_refusal hexec]⟩
  | some f =>
  cases h : b.link f with
  | error e =>
    left
    exact ⟨fun id => by simp [writes, hb, hf, h], by rw [step_link_of_error hb hf h]⟩
  | ok result =>
    right
    refine ⟨builder, function, b, result.1, f, result.2, rfl, hb, hf, h, fun id => ?_⟩
    simp [writes, hb, hf, h]

/-! ## Every session -/

theorem holds_of_linked (cs : List Command) : ∀ l ∈ (after cs).linked, l.value.Holds l.text := by
  refine (after_induction (P := fun s => s.FunctionsSound ∧ ∀ l ∈ s.linked, l.value.Holds l.text)
    ⟨functionsSound_after [], fun l hl => nomatch hl⟩ (fun s s' h hchange => ?_) cs).2
  refine ⟨h.1.change hchange, ?_⟩
  cases hchange with
  | linked journal hb hf hlink =>
    intro l hl
    rcases List.mem_append.mp hl with hl | hl
    · exact h.2 l hl
    · rw [List.mem_singleton.mp hl]
      exact h.1 _ _ hf (Builder.link_eq_ok hlink).2.1
  | _ => exact h.2

theorem addressOf?_of_pending (cs : List Command) {slot : String} {b : Builder}
    (hb : (after cs).workspace.builders.get? slot = some b) :
    ∀ g ∈ b.pending, b.symbols.addressOf? g.symbol = none := by
  intro g hg
  rw [(holds_after cs hb).pending] at hg
  exact Option.isNone_iff_eq_none.mp (List.mem_filter.mp hg).2

/-- What the log of a session says about a builder. -/
structure Logged (cs : List Command) (id : BuilderId) : Prop where
  /-- Nothing is written to a builder that is yet to be created. -/
  fresh : (after cs).workspace.builderCount ≤ id.number → writesInto cs id = []
  /-- The image is what the log makes of an empty one. -/
  image : ∀ slot b, (after cs).workspace.builders.get? slot = some b → b.id = id →
    (writesInto cs id).foldlM ImageWrite.perform #[] = .ok b.code
  /-- What was overwritten has its address, so it does not wait. -/
  placed : ∀ slot b, (after cs).workspace.builders.get? slot = some b → b.id = id →
    ∀ g ∈ overwritten (writesInto cs id), (b.symbols.addressOf? g.symbol).isSome
  /-- Only references are overwritten, -/
  references : ∀ g ∈ overwritten (writesInto cs id), g ∈ referencesOf ((after cs).linkedInto id)
  /-- and each of them once. -/
  nodup : (overwritten (writesInto cs id)).Nodup

namespace Logged

variable {cs : List Command} {c : Command} {id : BuilderId}

theorem empty (id : BuilderId) : Logged [] id where
  fresh := fun _ => rfl
  image := fun _ _ hb => nomatch hb
  placed := fun _ _ hb => nomatch hb
  references := fun _ hg => nomatch hg
  nodup := .nil

/-- A command that writes nothing to this builder. If it makes the builder, then the log is empty,
since the number is a new one. -/
theorem of_writes_eq_nil (h : Logged cs id) (hwrites : (after cs).writes id c = [])
    (hinto : ((after cs).step c).linkedInto id = (after cs).linkedInto id)
    (hsame : ∀ slot b', ((after cs).step c).workspace.builders.get? slot = some b' → b'.id = id →
      b' = { id := ⟨(after cs).workspace.builderCount⟩ } ∨
        ∃ b, (after cs).workspace.builders.get? slot = some b ∧ b.SameImage b') :
    Logged (cs ++ [c]) id := by
  have hlog : writesInto (cs ++ [c]) id = writesInto cs id := by
    rw [writesInto_concat, hwrites, List.append_nil]
  constructor
  case fresh =>
    intro hle
    rw [after_concat] at hle
    rw [hlog]
    exact h.fresh (Nat.le_trans (step_change (after cs) c).builderCount_le hle)
  case image =>
    intro slot b' hb' hid
    rw [after_concat] at hb'
    rw [hlog]
    rcases hsame slot b' hb' hid with rfl | ⟨b, hb, hsame⟩
    · rw [h.fresh (Nat.le_of_eq (congrArg BuilderId.number hid))]
      rfl
    · rw [h.image slot b hb (hsame.id.symm.trans hid), hsame.code]
  case placed =>
    intro slot b' hb' hid g hg
    rw [after_concat] at hb'
    rw [hlog] at hg
    rcases hsame slot b' hb' hid with rfl | ⟨b, hb, hsame⟩
    · rw [h.fresh (Nat.le_of_eq (congrArg BuilderId.number hid))] at hg
      cases hg
    · rw [hsame.address]
      exact h.placed slot b hb (hsame.id.symm.trans hid) g hg
  case references =>
    rw [hlog, after_concat, hinto]
    exact h.references
  case nodup =>
    rw [hlog]
    exact h.nodup

section Link

variable {builder function : String} {b b' : Builder} {f f' : Function}

theorem of_foreign_link (h : Logged cs id)
    (hb : (after cs).workspace.builders.get? builder = some b)
    (hf : (after cs).workspace.functions.get? function = some f)
    (hlink : b.link f = .ok (b', f')) (hid : b.id ≠ id)
    (hwrites : (after cs).writes id (.link builder function) = []) :
    Logged (cs ++ [.link builder function]) id := by
  have hstep := step_link_of_ok hb hf hlink
  have hown := (Builder.link_eq_ok hlink).1
  refine h.of_writes_eq_nil hwrites ?_ fun slot c hc hcid => ?_
  · rw [hstep, linkedInto, linkedInto]
    simp [hown, hid]
  · rw [hstep, Slots.get?_set] at hc
    split at hc
    · cases hc
      exact absurd ((Builder.linked_link hlink).2.symm.trans hcid) hid
    · exact .inr ⟨c, hc, .refl c⟩

/-- A link serves references that waited until now, so it serves none that was served before. -/
theorem of_link (h : Logged cs b.id) (hb : (after cs).workspace.builders.get? builder = some b)
    (hf : (after cs).workspace.functions.get? function = some f)
    (hlink : b.link f = .ok (b', f'))
    (hwrites : (after cs).writes b.id (.link builder function) = b.linkWrites b' f') :
    Logged (cs ++ [.link builder function]) b.id := by
  have hsound := buildersSound_after holds_invariant cs
  have hholds := holds_after cs hb
  have hsound' := buildersSound_after holds_invariant (cs ++ [.link builder function])
  obtain ⟨hgrows, -, hid'⟩ := Builder.link_symbols_names hlink
  have hlog : writesInto (cs ++ [.link builder function]) b.id =
      writesInto cs b.id ++ b.linkWrites b' f' := by
    rw [writesInto_concat, hwrites]
  have hover : overwritten (writesInto (cs ++ [.link builder function]) b.id) =
      overwritten (writesInto cs b.id) ++
        b.pending.filter fun g => (b'.symbols.addressOf? g.symbol).isSome := by
    rw [hlog, overwritten_append, Builder.overwritten_linkWrites]
  have hinto : (after (cs ++ [.link builder function])).linkedInto b.id =
      (after cs).linkedInto b.id ++ [⟨f, (after cs).textOf function⟩] := by
    rw [after_concat, step_link_of_ok hb hf hlink, linkedInto, linkedInto]
    simp [(Builder.link_eq_ok hlink).1]
  -- The builder is in no other slot, so it is `b'` that the log has to account for.
  have hbuilder : ∀ slot c,
      (after (cs ++ [.link builder function])).workspace.builders.get? slot = some c →
      c.id = b.id → c = b' := by
    intro slot c hc hcid
    have hb' := builders_link hb hf hlink
    have hslot := hsound'.slot_eq slot builder c b' hc hb' (hcid.trans hid'.symm)
    rw [hslot, hb', Option.some.injEq] at hc
    exact hc.symm
  constructor
  case fresh =>
    intro hle
    have hlt := hsound.number_lt builder b hb
    have hcount := (step_change (after cs) (.link builder function)).builderCount_le
    rw [after_concat] at hle
    omega
  case image =>
    intro slot c hc hcid
    rw [hbuilder slot c hc hcid, hlog, List.foldlM_append, h.image builder b hb rfl]
    exact (Builder.link_writes hlink).1
  case placed =>
    intro slot c hc hcid g hg
    rw [hbuilder slot c hc hcid]
    rw [hover] at hg
    rcases List.mem_append.mp hg with hold | hnew
    · obtain ⟨a, ha⟩ := Option.isSome_iff_exists.mp (h.placed builder b hb rfl g hold)
      rw [hgrows.extends _ a ha]
      rfl
    · exact (List.mem_filter.mp hnew).2
  case references =>
    intro g hg
    rw [hinto]
    refine referencesOf_subset _ _ ?_
    rw [hover] at hg
    rcases List.mem_append.mp hg with hold | hnew
    · exact h.references g hold
    · have hwaited := List.mem_of_mem_filter hnew
      rw [hholds.pending_eq_references] at hwaited
      exact List.mem_of_mem_filter hwaited
  case nodup =>
    rw [hover, List.nodup_append]
    refine ⟨h.nodup, ?_, ?_⟩
    · rw [hholds.pending]
      refine ((fixupsFrom_pairwise 0 _).imp ?_).filter _ |>.filter _
      rintro g k hbehind rfl
      omega
    · rintro g hold k hnew rfl
      have hplaced := h.placed builder b hb rfl g hold
      rw [addressOf?_of_pending cs hb g (List.mem_of_mem_filter hnew)] at hplaced
      cases hplaced

end Link

end Logged

/-- **Every image has a log.** Induction on the commands, the last one first. -/
theorem logged_after (cs : List Command) (id : BuilderId) : Logged cs id := by
  induction cs using List.reverseRecOn with
  | nil => exact .empty id
  | append_singleton cs c ih =>
    rcases writes_cases (after cs) c with
      ⟨hwrites, hlinked⟩ | ⟨builder, function, b, b', f, f', rfl, hb, hf, hlink, hwrites⟩
    · refine ih.of_writes_eq_nil (hwrites id) (by rw [linkedInto, hlinked, linkedInto]) ?_
      exact fun slot b' hb' _ => (step_change (after cs) c).sameImage hlinked hb'
    · by_cases hid : b.id = id
      · subst hid
        exact ih.of_link hb hf hlink (by rw [hwrites, if_pos rfl])
      · exact ih.of_foreign_link hb hf hlink hid (by rw [hwrites, if_neg hid])

theorem countP_le_one {α : Type} {l : List α} (hnodup : l.Nodup) {p : α → Bool}
    (hone : ∀ a ∈ l, ∀ b ∈ l, p a → p b → a = b) : l.countP p ≤ 1 := by
  have hfilter := hnodup.filter p
  rw [List.countP_eq_length_filter]
  rcases hcase : l.filter p with _ | ⟨a, _ | ⟨b, rest⟩⟩
  · exact Nat.zero_le 1
  · exact Nat.le_refl 1
  · have ha := List.mem_filter.mp (show a ∈ l.filter p by simp [hcase])
    have hb := List.mem_filter.mp (show b ∈ l.filter p by simp [hcase])
    rw [hcase, hone a ha.1 b hb.1 ha.2 hb.2] at hfilter
    exact absurd List.mem_cons_self (List.nodup_cons.mp hfilter).1

/-- What the log of a session promises about the image of a builder. -/
structure WrittenOnce (cs : List Command) (id : BuilderId) : Prop where
  /-- The log accounts for all bytes: it makes the image out of nothing. -/
  image : ∀ slot b, (after cs).workspace.builders.get? slot = some b → b.id = id →
    (writesInto cs id).foldlM ImageWrite.perform #[] = .ok b.code
  /-- What is overwritten are the eight bytes of references in functions that were linked. -/
  references : ∀ g ∈ overwritten (writesInto cs id), g ∈ referencesOf ((after cs).linkedInto id)
  /-- No byte is overwritten twice. -/
  once : ∀ p, (overwritten (writesInto cs id)).countP (fun g => g.Covers p) ≤ 1

/-- **The frame of a link.** Whenever a function is linked, the image grows by its bytes, and of the
bytes that were there only those change that waited for the function or for one of its blocks. All
other symbols, all names and globals stay as they are, and in the function itself only bytes at
fixups change. Over the whole session, nothing but links writes to an image, and what they overwrite
there they overwrite once. -/
theorem link_frame (cs : List Command) :
    (∀ builder function b f b' f', (after cs).workspace.builders.get? builder = some b →
      (after cs).workspace.functions.get? function = some f → b.link f = .ok (b', f') →
      b.LinkFrame f b' f') ∧
    ∀ id, WrittenOnce cs id := by
  constructor
  · intro builder function b f b' f' hb hf hlink
    exact Builder.linkFrame hlink (addressOf?_of_pending cs hb)
  · intro id
    have hlogged := logged_after cs id
    refine ⟨hlogged.image, hlogged.references, fun p => ?_⟩
    refine countP_le_one hlogged.nodup fun g hg k hk hgp hkp => ?_
    exact eq_of_covers (fun l hl => holds_of_linked cs l (List.mem_of_mem_filter hl))
      (hlogged.references g hg) (hlogged.references k hk) (of_decide_eq_true hgp)
      (of_decide_eq_true hkp)

/-- The call at the start of the image waits for the second function. When that one is linked, the
byte behind the opcode becomes the lower byte of its address; the reference of the new function to
the third one is left as it is, and nothing else in the session is overwritten. -/
theorem link_frame_mutualJumps : ∃ b helper b' helper',
    (after (mutualJumps.take 16)).workspace.builders.get? "b" = some b ∧
    (after (mutualJumps.take 16)).workspace.functions.get? "helper" = some helper ∧
    b.link helper = .ok (b', helper') ∧ b.pending = [⟨⟨1⟩, 1⟩] ∧
    b.code[1]? = some 0 ∧ b'.code[1]? = some 22 ∧ helper.HasSymbol ⟨1⟩ ∧
    b.LinkFrame helper b' helper' ∧
    overwritten (writesInto mutualJumps b.id) = [⟨⟨1⟩, 1⟩] ∧ WrittenOnce mutualJumps b.id := by
  have hsession : ((after (mutualJumps.take 16)).workspace.builders.get? "b").bind (fun b =>
      ((after (mutualJumps.take 16)).workspace.functions.get? "helper").bind fun helper =>
        (b.link helper).toOption.map fun result =>
          (b.pending, b.code[1]?, result.1.code[1]?, helper.symbol,
            overwritten (writesInto mutualJumps b.id))) =
      some ([⟨⟨1⟩, 1⟩], some 0, some 22, ⟨1⟩, [⟨⟨1⟩, 1⟩]) := by
    decide +kernel
  obtain ⟨b, hb, hsession⟩ := Option.bind_eq_some_iff.mp hsession
  obtain ⟨helper, hhelper, hsession⟩ := Option.bind_eq_some_iff.mp hsession
  obtain ⟨⟨b', helper'⟩, hlink, hsession⟩ := Option.map_eq_some_iff.mp hsession
  simp only [Prod.mk.injEq] at hsession
  obtain ⟨hpending, hbefore, hafter, hsymbol, hover⟩ := hsession
  have hlink := toOption_eq_some.mp hlink
  exact ⟨b, helper, b', helper', hb, hhelper, hlink, hpending, hbefore, hafter, .inl hsymbol,
    (link_frame (mutualJumps.take 16)).1 "b" "helper" b helper b' helper' hb hhelper hlink, hover,
    (link_frame mutualJumps).2 b.id⟩

end Session

end ImageLinker
