import ImageLinker.Proofs.Handles

/-!
# How a link is answered

Linking checks a function three times before anything is changed: whether it is of this builder,
whether it has its place already, and whether all that it refers to is known. The second check looks
at a flag of the function and at the address of its symbol. Neither speaks of the past, but together
they tell whether this value, an earlier one or a copy was ever linked.

* `Session.Recorded`: a function that is marked as linked is in the record of links.
* `Builder.openIn_iff`: a function of the builder is open if and only if no value with its symbol
  was linked.
* `Builder.place_of_full`: what happens if there is no room left in the image.
* `Builder.LinkCase`: the five ways in which a link can end, each with its reason. From it come the
  conditions of all answers (`Builder.LinkCase.answers`).
* `Session.link_answered`: the answers in every session, and that a refusal changes nothing.
-/

namespace ImageLinker

/-! ## Functions that were linked -/

namespace Session

variable {s s' : Session}

/-- Every function that is marked as linked is in the record of links, under its symbol. -/
def Recorded (s : Session) : Prop :=
  ∀ slot f, s.workspace.functions.get? slot = some f → f.linked = true →
    ∃ l ∈ s.linked, l.value.builder = f.builder ∧ l.value.symbol = f.symbol

namespace Recorded

theorem of_set (h : s.Recorded) {slot : String} {f : Function}
    (hfunctions : s'.workspace.functions = s.workspace.functions.set slot f)
    (hlinked : s.linked ⊆ s'.linked)
    (hf : f.linked = true →
      ∃ l ∈ s'.linked, l.value.builder = f.builder ∧ l.value.symbol = f.symbol) :
    s'.Recorded := by
  intro other g hg hmarked
  rw [hfunctions, Slots.get?_set] at hg
  split at hg
  · cases hg
    exact hf hmarked
  · obtain ⟨l, hl, hsame⟩ := h other g hg hmarked
    exact ⟨l, hlinked hl, hsame⟩

/-- Only a link marks a function, and it records the function at the same time. -/
theorem change (h : s.Recorded) (hchange : Change s s') : s'.Recorded := by
  cases hchange with
  | aside => exact h
  | builderMade => exact h
  | functionMade slot hb hmade =>
    refine h.of_set rfl (List.Subset.refl _) fun hmarked => ?_
    rw [Builder.newFunction_eq_ok hmade] at hmarked
    cases hmarked
  | functionRefused => exact h
  | @functionCopied function f slot hf => exact h.of_set rfl (List.Subset.refl _) (h function f hf)
  | blockMade slot hb hf hmade =>
    obtain ⟨hcheck, rfl⟩ := Builder.appendBlock_eq_ok hmade
    refine h.of_set rfl (List.Subset.refl _) fun hmarked => ?_
    have hopen := (Builder.checkUnlinked_eq_ok hcheck).2.1
    exact absurd (hopen.symm.trans hmarked) (by decide)
  | blockRefused => exact h
  | written is journal hf hr hblock hchecked =>
    refine h.of_set rfl (List.Subset.refl _) fun hmarked => ?_
    have hopen := (writableBlock_eq_ok hblock).1
    exact absurd (hopen.symm.trans hmarked) (by decide)
  | @linked builder function b b' f f' journal hb hf hlink =>
    refine h.of_set rfl (List.subset_append_left _ _) fun _ => ?_
    refine ⟨⟨f, s.textOf function⟩, List.mem_append_right _ (List.mem_singleton.mpr rfl), ?_⟩
    obtain ⟨_, _, layout, -, -, -, -, -, rfl⟩ := Builder.link_passes hlink
    exact ⟨rfl, rfl⟩
  | globalsChanged => exact h
  | finished => exact h

end Recorded

theorem recorded_after (cs : List Command) : (after cs).Recorded :=
  after_induction (fun _ _ hf => nomatch hf) (fun _ _ h hchange => h.change hchange) cs

/-- The function itself, an earlier value of it or a copy was linked. -/
def LinkedBefore (cs : List Command) (f : Function) : Prop :=
  ∃ l ∈ (after cs).linkedInto f.builder, l.value.symbol = f.symbol

theorem not_linkedBefore {cs : List Command} (h : (after cs).linked.length = 0) {f : Function} :
    ¬LinkedBefore cs f := by
  rintro ⟨l, hl, -⟩
  rw [linkedInto, List.length_eq_zero_iff.mp h] at hl
  cases hl

end Session

/-! ## Reasons -/

/-- An image that is too long for the function: the first pass notices it, since it forms the
address behind the last block. Induction on the blocks. -/
theorem Symbols.place_of_full {s : Symbols} {cursor : Nat} {blocks : List Block}
    (hopen : ∀ block ∈ blocks, s.IsOpen block.symbol) (hnodup : (blocks.map Block.symbol).Nodup)
    (hcursor : cursor < addressLimit)
    (hfull : addressLimit ≤ cursor + (blocks.map Block.size).sum) :
    s.place cursor blocks = .error .addressOverflow := by
  induction blocks generalizing s cursor with
  | nil =>
    rw [List.map_nil, List.sum_nil] at hfull
    omega
  | cons block rest ih =>
    rw [List.map_cons, List.nodup_cons] at hnodup
    rw [List.map_cons, List.sum_cons] at hfull
    obtain ⟨s₁, hresolve⟩ := exists_resolve (hopen block List.mem_cons_self) cursor block.size
    rw [place, hresolve]
    show (addAddress cursor block.size >>= fun next => s₁.place next rest) = _
    by_cases hnext : cursor + block.size < addressLimit
    · rw [addAddress, if_pos hnext]
      have hopen₁ := isOpen_of_resolve hresolve hnodup.1 fun other hother =>
        hopen other (List.mem_cons_of_mem _ hother)
      exact ih hopen₁ hnodup.2 hnext (by omega)
    · rw [addAddress, if_neg hnext]
      rfl

namespace Builder

variable {b : Builder} {ls : List LinkedFunction} {f : Function} {text : List (List Instruction)}

/-- The symbol is the first one, in order of blocks and then of recording, that the function refers
to and the builder does not have. -/
def FirstUnknown (b : Builder) (f : Function) (id : SymbolId) : Prop :=
  ∃ before g after, f.fixups = before ++ g :: after ∧ g.symbol = id ∧ b.symbols.get? id = none ∧
    ∀ k ∈ before, (b.symbols.get? k.symbol).isSome

theorem unknownSymbol?_eq_some_iff {id : SymbolId} :
    b.unknownSymbol? f = some id ↔ b.FirstUnknown f id := by
  unfold unknownSymbol? FirstUnknown
  rw [Option.map_eq_some_iff]
  constructor
  · rintro ⟨g, hfind, rfl⟩
    obtain ⟨hnone, before, after, hsplit, hknown⟩ := List.find?_eq_some_iff_append.mp hfind
    refine ⟨before, g, after, hsplit, rfl, Option.isNone_iff_eq_none.mp hnone, fun k hk => ?_⟩
    simpa [Option.isSome_iff_ne_none] using hknown k hk
  · rintro ⟨before, g, after, hsplit, rfl, hnone, hknown⟩
    refine ⟨g, List.find?_eq_some_iff_append.mpr ⟨?_, before, after, hsplit, fun k hk => ?_⟩, rfl⟩
    · exact Option.isNone_iff_eq_none.mpr hnone
    · simpa [Option.isSome_iff_ne_none] using hknown k hk

/-- **Open means never linked.** The symbol of a function gets its address when some value of the
function is linked, and in no other way: no block has the same symbol. -/
theorem openIn_iff (hplaced : b.Placed ls) (hnames : b.NamesSound)
    (hlinked : ∀ l ∈ ls, l.value.KnownTo b) (hregistered : f.KnownTo b) (hid : f.builder = b.id)
    (hrecorded : f.linked = true → ∃ l ∈ ls, l.value.symbol = f.symbol) :
    f.OpenIn b ↔ ¬∃ l ∈ ls, l.value.symbol = f.symbol := by
  constructor
  · rintro hopen ⟨l, hl, hsymbol⟩
    have hsome := (hplaced.resolved f.symbol).mpr ⟨l, hl, .inl hsymbol⟩
    rw [hopen.unplaced] at hsome
    cases hsome
  · intro hnever
    refine ⟨hid, Bool.eq_false_iff.mpr fun hmarked => hnever (hrecorded hmarked), ?_⟩
    by_contra haddress
    have hlaid := hplaced.laidOut hnames hlinked
    obtain ⟨l, hl, -, hsymbol⟩ := (hlaid.function_resolved f.name f.symbol hregistered.name).mp
      (Option.isSome_iff_ne_none.mpr haddress)
    exact hnever ⟨l, hl, hsymbol⟩

theorem place_of_full (h : b.Holds ls) (hplaced : b.Placed ls) (hnames : b.NamesSound)
    (hlinked : ∀ l ∈ ls, l.value.KnownTo b) (hregistered : f.KnownTo b)
    (hunplaced : b.symbols.addressOf? f.symbol = none)
    (hfull : addressLimit ≤ b.code.size + f.size) : b.place f = .error .addressOverflow := by
  rw [Function.size_eq] at hfull
  have hblocks := Symbols.place_of_full
    (fun block hblock => hplaced.isOpen_block hnames hlinked hregistered hunplaced
      (Array.mem_toList_iff.mp hblock)) hregistered.blocks_nodup h.code_lt hfull
  simp [place, hblocks, bind, Except.bind]

/-! ## Answers -/

/-- The ways in which a link of `f` can end. `before` stands for the one reason that is about the
past. -/
inductive LinkCase (b : Builder) (f : Function) (before : Prop) :
    Except Failure (Builder × Function) → Prop where
  | foreign (hforeign : f.builder ≠ b.id) :
    LinkCase b f before (.error (.error (.foreignFunction f.name)))
  | again (hid : f.builder = b.id) (hbefore : before) :
    LinkCase b f before (.error (.error (.alreadyLinked f.name)))
  | unknown {id : SymbolId} (hid : f.builder = b.id) (hnever : ¬before)
    (hunknown : b.unknownSymbol? f = some id) :
    LinkCase b f before (.error (.error (.unknownSymbol id)))
  | full (hid : f.builder = b.id) (hnever : ¬before) (hknown : b.unknownSymbol? f = none)
    (hfull : ¬b.code.size + f.size < addressLimit) :
    LinkCase b f before (.error (.fault .addressOverflow))
  | linked (r : Builder × Function) (hid : f.builder = b.id) (hnever : ¬before)
    (hknown : b.unknownSymbol? f = none) (hfits : b.code.size + f.size < addressLimit) :
    LinkCase b f before (.ok r)

/-- The checks in their order, and then the passes, of which only the first can fail. -/
theorem linkCase {before : Prop} (hopen : f.builder = b.id → (f.OpenIn b ↔ ¬before))
    (hknown : f.builder = b.id → (b.symbols.get? f.symbol).isSome)
    (hplace : f.OpenIn b → b.unknownSymbol? f = none → b.code.size + f.size < addressLimit →
      ∃ r, b.place f = .ok r)
    (hfull : f.OpenIn b → addressLimit ≤ b.code.size + f.size →
      b.place f = .error .addressOverflow) :
    b.LinkCase f before (b.link f) := by
  by_cases hid : f.builder = b.id
  swap
  · have hlink : b.link f = .error (.error (.foreignFunction f.name)) := by
      rw [link, checkUnlinked_of_foreign hid]
      rfl
    rw [hlink]
    exact .foreign hid
  by_cases hbefore : before
  · have hclosed : ¬f.OpenIn b := fun h => (hopen hid).mp h hbefore
    have hlink : b.link f = .error (.error (.alreadyLinked f.name)) := by
      rw [link, checkUnlinked_of_closed hid (hknown hid) hclosed]
      rfl
    rw [hlink]
    exact .again hid hbefore
  have hopen := (hopen hid).mpr hbefore
  have hcheck := checkUnlinked_of_openIn hopen (hknown hid)
  cases hunknown : b.unknownSymbol? f with
  | some id =>
    have hlink : b.link f = .error (.error (.unknownSymbol id)) := by
      simp [link, hcheck, hunknown, bind, Except.bind]
    rw [hlink]
    exact .unknown hid hbefore hunknown
  | none =>
    by_cases hfits : b.code.size + f.size < addressLimit
    · obtain ⟨r, hr⟩ := hplace hopen hunknown hfits
      have hlink : b.link f = .ok r := by
        simp [link, hcheck, hunknown, hr, bind, Except.bind, Except.mapError]
      rw [hlink]
      exact .linked r hid hbefore hunknown hfits
    · have hfault := hfull hopen (Nat.le_of_not_lt hfits)
      have hlink : b.link f = .error (.fault .addressOverflow) := by
        simp [link, hcheck, hunknown, hfault, bind, Except.bind, Except.mapError]
      rw [hlink]
      exact .full hid hbefore hunknown hfits

/-- When a link gives which answer. An answer that is not here is never given. -/
structure LinkAnswers (b : Builder) (f : Function) (before : Prop) : Prop where
  foreign_iff : b.link f = .error (.error (.foreignFunction f.name)) ↔ f.builder ≠ b.id
  again_iff : b.link f = .error (.error (.alreadyLinked f.name)) ↔ f.builder = b.id ∧ before
  unknown_iff : ∀ id, b.link f = .error (.error (.unknownSymbol id)) ↔
    f.builder = b.id ∧ ¬before ∧ b.FirstUnknown f id
  /-- There has to be room: the bytes of the image and of the function have to be addressable. -/
  ok_iff : (∃ r, b.link f = .ok r) ↔
    f.builder = b.id ∧ ¬before ∧ (∀ g ∈ f.fixups, (b.symbols.get? g.symbol).isSome) ∧
      b.code.size + f.size < addressLimit
  full_iff : b.link f = .error (.fault .addressOverflow) ↔
    f.builder = b.id ∧ ¬before ∧ (∀ g ∈ f.fixups, (b.symbols.get? g.symbol).isSome) ∧
      ¬b.code.size + f.size < addressLimit
  error_cases : ∀ e, b.link f = .error e →
    e = .error (.foreignFunction f.name) ∨ e = .error (.alreadyLinked f.name) ∨
      (∃ id, e = .error (.unknownSymbol id)) ∨ e = .fault .addressOverflow

theorem LinkCase.answers {before : Prop} (h : b.LinkCase f before (b.link f)) :
    b.LinkAnswers f before := by
  -- The reasons exclude each other, so each answer comes with its own reason and no other.
  generalize hanswer : b.link f = answer at h
  constructor
  case foreign_iff =>
    rw [hanswer]
    cases h <;> simp [*]
  case again_iff =>
    rw [hanswer]
    cases h <;> simp [*]
  case unknown_iff =>
    intro id
    rw [hanswer, ← unknownSymbol?_eq_some_iff]
    cases h <;> simp [*]
  case ok_iff =>
    rw [hanswer, ← unknownSymbol?_eq_none_iff]
    cases h <;> simp [*]
  case full_iff =>
    rw [hanswer, ← unknownSymbol?_eq_none_iff]
    cases h <;> simp [*]
  case error_cases =>
    intro e he
    rw [hanswer] at he
    subst he
    cases h with
    | foreign => exact .inl rfl
    | again => exact .inr (.inl rfl)
    | @unknown id => exact .inr (.inr (.inl ⟨id, rfl⟩))
    | full => exact .inr (.inr (.inr rfl))

end Builder

/-! ## Sessions -/

namespace Session

theorem linkAnswers_after {cs : List Command} {builder function : String} {b : Builder}
    {f : Function} (hb : (after cs).workspace.builders.get? builder = some b)
    (hf : (after cs).workspace.functions.get? function = some f) :
    b.LinkAnswers f (LinkedBefore cs f) := by
  have hholds := holds_after cs hb
  have hplaced := placed_after cs hb
  have hnames := (registered_after cs).names builder b hb
  have hlinked : ∀ l ∈ (after cs).linkedInto b.id, l.value.KnownTo b :=
    fun l hl => knownTo_of_linkedInto cs hb hl
  have hregistered := (registered_after cs).known builder b f hb (.inl ⟨function, hf⟩)
  refine (Builder.linkCase (fun hid => ?_) (fun hid => ?_) (fun hopen hunknown hfits => ?_)
    fun hopen hfull => ?_).answers
  · unfold LinkedBefore
    rw [hid]
    refine Builder.openIn_iff hplaced hnames hlinked (hregistered hid) hid fun hmarked => ?_
    obtain ⟨l, hl, hbuilder, hsymbol⟩ := recorded_after cs function f hf hmarked
    exact ⟨l, List.mem_filter.mpr ⟨hl, decide_eq_true (hbuilder.trans hid)⟩, hsymbol⟩
  · exact hnames.functions.isSome (hregistered hid).name
  · exact Builder.exists_place hholds hplaced hnames hlinked
      (functionsSound_after cs function f hf hopen.linked) (hregistered hopen.builder)
      hopen.unplaced (Builder.unknownSymbol?_eq_none_iff.mp hunknown) hfits
  · exact Builder.place_of_full hholds hplaced hnames hlinked (hregistered hopen.builder)
      hopen.unplaced hfull

/-- **When a link is refused, and that nothing comes of it.** After any commands, a builder refuses
a function of another builder, one of which some value was linked before, and one that refers to a
symbol that the builder does not have, in this order; all others it links, as long as there is room.
A refusal leaves the whole session as it was, so that all that follows goes on as if nobody had
asked. In particular a function that was refused for a missing symbol can be linked when the builder
has all symbols that the function refers to. -/
theorem link_answered (cs : List Command) (builder function : String) (b : Builder) (f : Function)
    (hb : (after cs).workspace.builders.get? builder = some b)
    (hf : (after cs).workspace.functions.get? function = some f) :
    b.LinkAnswers f (LinkedBefore cs f) ∧
    (∀ e, b.link f = .error e →
      (∀ cs', after (cs ++ .link builder function :: cs') = after (cs ++ cs')) ∧
      ∀ (α : Type) (steps : List (Step α)),
        (after (cs ++ [.link builder function])).workspace.run steps =
          (after cs).workspace.run steps) ∧
    ∀ id, b.link f = .error (.error (.unknownSymbol id)) →
      ∀ cs' builder' function' c,
        (after (cs ++ .link builder function :: cs')).workspace.builders.get? builder' = some c →
        c.id = b.id →
        (after (cs ++ .link builder function :: cs')).workspace.functions.get? function' = some f →
        ¬LinkedBefore (cs ++ .link builder function :: cs') f →
        (∀ g ∈ f.fixups, (c.symbols.get? g.symbol).isSome) →
        c.code.size + f.size < addressLimit → ∃ r, c.link f = .ok r := by
  have hanswers := linkAnswers_after hb hf
  refine ⟨hanswers, fun e he => ?_, fun id hid => ?_⟩
  · have hstep := step_link_of_error hb hf he
    constructor
    · intro cs'
      rw [after, after, List.foldl_append, List.foldl_append, List.foldl_cons]
      show cs'.foldl step ((after cs).step _) = _
      rw [hstep]
      rfl
    · intro α steps
      rw [after_concat, hstep]
  · intro cs' builder' function' c hc hcid hf' hnever hknown hfits
    have hown := ((hanswers.unknown_iff id).mp hid).1
    exact (linkAnswers_after hc hf').ok_iff.mpr ⟨hown.trans hcid.symm, hnever, hknown, hfits⟩

/-- The call is the second reference of the function and the first one that is unknown; the other
builder refuses the function as a stranger. Asking changes nothing, and when one more function was
created the call has a target, if not the one that was meant, and the function is linked. In the
second session a function is refused because its copy was linked. -/
theorem link_answered_farReference : ∃ a b main c d copied,
    (after farReference).workspace.builders.get? "a" = some a ∧
    (after farReference).workspace.builders.get? "b" = some b ∧
    (after farReference).workspace.functions.get? "main" = some main ∧
    a.link main = .error (.error (.unknownSymbol ⟨3⟩)) ∧
    b.link main = .error (.error (.foreignFunction main.name)) ∧
    after (farReference ++ .link "a" "main" :: [.newFunction "a" "late" "late"]) =
      after (farReference ++ [.newFunction "a" "late" "late"]) ∧
    (after (farReference ++ .link "a" "main" :: [.newFunction "a" "late" "late"])
      ).workspace.builders.get? "a" = some c ∧ (∃ r, c.link main = .ok r) ∧
    (after mutualJumps).workspace.builders.get? "b" = some d ∧
    (after mutualJumps).workspace.functions.get? "main" = some copied ∧
    copied.linked = false ∧ d.link copied = .error (.error (.alreadyLinked copied.name)) := by
  have hbuilders : ((after farReference).workspace.builders.get? "a").bind (fun a =>
      ((after farReference).workspace.builders.get? "b").map fun b =>
        (a.id, a.symbols.size, b.id)) = some (⟨0⟩, 3, ⟨1⟩) := by
    decide +kernel
  have hfunction : ((after farReference).workspace.functions.get? "main").map (fun main =>
      (main.builder, main.size, main.fixups)) = some (⟨0⟩, 18, [⟨⟨2⟩, 1⟩, ⟨⟨3⟩, 1⟩]) := by
    decide +kernel
  have hlater : ((after (farReference ++ .link "a" "main" :: [.newFunction "a" "late" "late"])
      ).workspace.builders.get? "a").map (fun c => (c.id, c.symbols.size, c.code.size)) =
      some (⟨0⟩, 4, 0) := by
    decide +kernel
  have hsame : (after (farReference ++ .link "a" "main" :: [.newFunction "a" "late" "late"])
      ).workspace.functions.get? "main" = (after farReference).workspace.functions.get? "main" := by
    decide +kernel
  have hnothing : (after farReference).linked.length = 0 ∧
      (after (farReference ++ .link "a" "main" :: [.newFunction "a" "late" "late"])
        ).linked.length = 0 := by
    decide +kernel
  have hcopy : ((after mutualJumps).workspace.builders.get? "b").bind (fun d =>
      ((after mutualJumps).workspace.functions.get? "main").map fun copied =>
        (d.id, copied.builder, copied.symbol, copied.linked)) = some (⟨0⟩, ⟨0⟩, ⟨0⟩, false) := by
    decide +kernel
  have hrecord : ((after mutualJumps).linked.map fun l => (l.value.builder, l.value.symbol)) =
      [(⟨0⟩, ⟨0⟩), (⟨0⟩, ⟨1⟩)] := by
    decide +kernel
  obtain ⟨a, ha, hbuilders⟩ := Option.bind_eq_some_iff.mp hbuilders
  obtain ⟨b, hb, hbuilders⟩ := Option.map_eq_some_iff.mp hbuilders
  obtain ⟨main, hmain, hfunction⟩ := Option.map_eq_some_iff.mp hfunction
  obtain ⟨c, hc, hlater⟩ := Option.map_eq_some_iff.mp hlater
  obtain ⟨d, hd, hcopy⟩ := Option.bind_eq_some_iff.mp hcopy
  obtain ⟨copied, hcopied, hcopy⟩ := Option.map_eq_some_iff.mp hcopy
  simp only [Prod.mk.injEq] at hbuilders hfunction hlater hcopy
  obtain ⟨haid, hasize, hbid⟩ := hbuilders
  obtain ⟨hown, hsize, hfixups⟩ := hfunction
  obtain ⟨hcid, hcsize, hccode⟩ := hlater
  obtain ⟨hdid, hcopyOwn, hcopySymbol, hopen⟩ := hcopy
  obtain ⟨hanswers, hrefused, hretry⟩ := link_answered farReference "a" "main" a main ha hmain
  have hfirst : a.FirstUnknown main ⟨3⟩ := by
    refine ⟨[⟨⟨2⟩, 1⟩], ⟨⟨3⟩, 1⟩, [], hfixups, rfl, ?_, fun k hk => ?_⟩
    · exact Symbols.get?_eq_none_iff.mpr (Nat.le_of_eq hasize)
    · rw [List.mem_singleton.mp hk, Symbols.isSome_get?_iff, hasize]
      decide
  have hunknown := (hanswers.unknown_iff ⟨3⟩).mpr
    ⟨hown.trans haid.symm, not_linkedBefore hnothing.1, hfirst⟩
  have hforeign := (link_answered farReference "b" "main" b main hb hmain).1.foreign_iff.mpr
    (by rw [hown, hbid]; decide)
  have hlinked := hretry ⟨3⟩ hunknown [.newFunction "a" "late" "late"] "a" "main" c hc
    (hcid.trans haid.symm) (hsame.trans hmain) (not_linkedBefore hnothing.2)
    (by simp [hfixups, Symbols.isSome_get?_iff, hcsize])
    (by rw [hccode, hsize]; decide)
  have hbefore : LinkedBefore mutualJumps copied := by
    have hmem : (copied.builder, copied.symbol) ∈
        (after mutualJumps).linked.map fun l => (l.value.builder, l.value.symbol) := by
      rw [hrecord, hcopyOwn, hcopySymbol]
      exact List.mem_cons_self
    obtain ⟨l, hl, hpair⟩ := List.mem_map.mp hmem
    rw [Prod.mk.injEq] at hpair
    exact ⟨l, List.mem_filter.mpr ⟨hl, decide_eq_true hpair.1⟩, hpair.2⟩
  exact ⟨a, b, main, c, d, copied, ha, hb, hmain, hunknown, hforeign, (hrefused _ hunknown).1 _, hc,
    hlinked, hd, hcopied, hopen,
    (link_answered mutualJumps "b" "main" d copied hd hcopied).1.again_iff.mpr
      ⟨hcopyOwn.trans hdid.symm, hbefore⟩⟩

end Session

end ImageLinker
