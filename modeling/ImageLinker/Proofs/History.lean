import ImageLinker.Proofs.Session

/-!
# What sessions keep

Whatever is done to a workspace, an open function holds what was written into it
(`Session.FunctionsSound`) and a builder keeps what links keep (`Session.BuildersSound`), such as to
hold what was linked into it.
The first needs that each function is known under the name of its slot, the second that no two slots
hold the same builder: builders get their numbers from a counter and are never copied.

`Session.buildersSound_after` is what the properties of all sessions start from, most of them with
`Session.holds_after`.
-/

namespace ImageLinker

/-! ## Slots -/

namespace Slots

variable {α : Type}

theorem get?_cons (name : String) (a : α) (entries : List (String × α)) (other : String) :
    get? ⟨(name, a) :: entries⟩ other = if other = name then some a else get? ⟨entries⟩ other := by
  by_cases hother : other = name
  · simp [get?, hother]
  · simp [get?, List.lookup_cons, beq_false_of_ne hother, hother]

theorem get?_erase (s : Slots α) (name other : String) :
    (s.erase name).get? other = if other = name then none else s.get? other := by
  obtain ⟨entries⟩ := s
  unfold erase
  induction entries with
  | nil => simp [get?]
  | cons entry entries ih =>
    rcases entry with ⟨key, a⟩
    rw [get?_cons]
    by_cases hkey : key = name
    · rw [List.filter_cons_of_neg (by simp [hkey]), ih, hkey]
      split <;> rfl
    · rw [List.filter_cons_of_pos (by simp [hkey]), get?_cons, ih]
      split
      · rename_i hother
        rw [if_neg (by rw [hother]; exact hkey)]
      · rfl

theorem get?_set (s : Slots α) (name : String) (a : α) (other : String) :
    (s.set name a).get? other = if other = name then some a else s.get? other := by
  have hrest := s.get?_erase name other
  rw [set, get?_cons]
  split
  · rfl
  · rename_i hother
    rwa [if_neg hother] at hrest

end Slots

namespace Session

variable {s s' : Session}

/-! ## Functions -/

/-- The block behind a handle and the list of what was written into it are at the same place.
Induction on the blocks, down to that place. -/
theorem forall₂_set_modify {blocks : List Block} {text : List (List Instruction)}
    (h : List.Forall₂ Block.Holds blocks text) {is : List Instruction}
    (hchecked : ∀ i ∈ is, i.check? = none) {n : Nat} {block : Block}
    (hat : blocks[n]? = some block) :
    List.Forall₂ Block.Holds (blocks.set n (is.foldl Block.append block))
      (text.modify n (· ++ is)) := by
  induction h generalizing n with
  | nil => simp at hat
  | cons hb hrest ih =>
    cases n with
    | zero =>
      rw [List.getElem?_cons_zero, Option.some.injEq] at hat
      subst hat
      exact .cons (hb.foldl_append hchecked) hrest
    | succ n =>
      rw [List.getElem?_cons_succ] at hat
      exact .cons hb (ih hat)

theorem writableBlock_eq_ok {f : Function} {r : BlockRef} {block : Block}
    (h : f.writableBlock r = .ok block) :
    f.linked = false ∧ f.blocks.toList[r.index]? = some block := by
  unfold Function.writableBlock Function.block? at h
  cases hlinked : f.linked with
  | true => simp [hlinked] at h
  | false =>
    cases howns : f.owns r with
    | false => simp [hlinked, howns] at h
    | true =>
      cases hat : f.blocks[r.index]? with
      | none => simp [hlinked, howns, hat] at h
      | some found => simpa [hlinked, howns, hat] using h

/-- Every open function holds what was written into it. -/
def FunctionsSound (s : Session) : Prop :=
  ∀ slot f, s.workspace.functions.get? slot = some f → f.linked = false →
    f.Holds (s.textOf slot)

theorem textOf_of_set {slot : String} {text : List (List Instruction)}
    (h : s'.texts = s.texts.set slot text) (other : String) :
    s'.textOf other = if other = slot then text else s.textOf other := by
  unfold textOf
  rw [h, Slots.get?_set]
  split <;> rfl

namespace FunctionsSound

/-- One function is put into its slot. If it is open, it has to hold what is noted for it. -/
theorem of_set (h : s.FunctionsSound) {slot : String} {f : Function}
    (hfunctions : s'.workspace.functions = s.workspace.functions.set slot f)
    (hothers : ∀ other, other ≠ slot → s'.textOf other = s.textOf other)
    (hf : f.linked = false → f.Holds (s'.textOf slot)) : s'.FunctionsSound := by
  intro other g hg hopen
  rw [hfunctions, Slots.get?_set] at hg
  split at hg
  · rename_i hother
    cases hg
    rw [hother]
    exact hf hopen
  · rename_i hother
    rw [hothers other hother]
    exact h other g hg hopen

/-- One function is put into its slot together with what it holds. -/
theorem of_note (h : s.FunctionsSound) {slot : String} {f : Function}
    {text : List (List Instruction)}
    (hfunctions : s'.workspace.functions = s.workspace.functions.set slot f)
    (htexts : s'.texts = s.texts.set slot text) (hf : f.linked = false → f.Holds text) :
    s'.FunctionsSound := by
  refine h.of_set hfunctions (fun other hother => ?_) fun hopen => ?_
  · rw [textOf_of_set htexts, if_neg hother]
  · rw [textOf_of_set htexts, if_pos rfl]
    exact hf hopen

/-- **Functions stay sound.** A function is created empty, copied with what was written into it, or
changed in one block; a link closes it. -/
theorem change (h : s.FunctionsSound) (hchange : Change s s') : s'.FunctionsSound := by
  cases hchange with
  | aside => exact h
  | builderMade => exact h
  | functionMade slot hb hmade =>
    refine h.of_note rfl rfl fun _ => ?_
    rw [Builder.newFunction_eq_ok hmade]
    exact .nil
  | functionRefused => exact h
  | @functionCopied function f slot hf => exact h.of_note rfl rfl fun hopen => h function f hf hopen
  | @blockMade builder function b b' f f' r slot hb hf hmade =>
    obtain ⟨hcheck, rfl⟩ := Builder.appendBlock_eq_ok hmade
    obtain ⟨-, hopen, -⟩ := Builder.checkUnlinked_eq_ok hcheck
    refine h.of_note rfl rfl fun _ => ?_
    rw [Function.Holds, Function.pushBlock, Array.toList_push]
    exact List.rel_append (h function f hf hopen) (.cons (.empty _) .nil)
  | blockRefused => exact h
  | @written function ref f r block is journal hf hr hblock hchecked =>
    obtain ⟨hopen, hat⟩ := writableBlock_eq_ok hblock
    refine h.of_note rfl rfl fun _ => ?_
    rw [Function.Holds, Function.setBlock, Array.toList_setIfInBounds]
    exact forall₂_set_modify (h function f hf hopen) hchecked hat
  | linked journal hb hf hlink =>
    -- The blocks now hold addresses instead of zeros, but nobody asks any more what they hold.
    refine h.of_set rfl (fun other hother => rfl) fun hopen => ?_
    rw [(Builder.linked_link hlink).1] at hopen
    cases hopen
  | globalsChanged => exact h
  | finished => exact h

end FunctionsSound

/-! ## Builders -/

/-- A relation between builders and what was linked into them that begins with an empty builder and
is kept by all that leaves the image alone. -/
structure ImageInvariant (P : Builder → List LinkedFunction → Prop) : Prop where
  empty : ∀ id, P { id } []
  sameImage : ∀ {b b' ls}, P b ls → b.SameImage b' → P b' ls

/-- Such a relation that is kept by links as well. -/
structure BuilderInvariant (P : Builder → List LinkedFunction → Prop) : Prop
    extends ImageInvariant P where
  link : ∀ {b b' f f' ls text}, P b ls → f.Holds text → b.link f = .ok (b', f') →
    P b' (ls ++ [⟨f, text⟩])

/-- Every builder stands in a relation to what was linked into it. -/
structure BuildersSound (P : Builder → List LinkedFunction → Prop) (s : Session) : Prop where
  number_lt : ∀ slot b, s.workspace.builders.get? slot = some b →
    b.id.number < s.workspace.builderCount
  /-- No builder is in two slots. -/
  slot_eq : ∀ slot slot' b b', s.workspace.builders.get? slot = some b →
    s.workspace.builders.get? slot' = some b' → b.id = b'.id → slot = slot'
  /-- Nothing was linked into a builder that is yet to be created. -/
  linked_lt : ∀ l ∈ s.linked, l.value.builder.number < s.workspace.builderCount
  holds : ∀ slot b, s.workspace.builders.get? slot = some b → P b (s.linkedInto b.id)

namespace BuildersSound

variable {P : Builder → List LinkedFunction → Prop}

/-- One builder is replaced by a later state of itself, and only its own history may have grown. -/
theorem of_set (h : s.BuildersSound P) {slot : String} {b b' : Builder}
    (hb : s.workspace.builders.get? slot = some b) (hid : b'.id = b.id)
    (hcount : s'.workspace.builderCount = s.workspace.builderCount)
    (hbuilders : s'.workspace.builders = s.workspace.builders.set slot b')
    (hlinked : ∀ l ∈ s'.linked, l ∈ s.linked ∨ l.value.builder = b.id)
    (hothers : ∀ id, id ≠ b.id → s'.linkedInto id = s.linkedInto id)
    (hholds : P b' (s'.linkedInto b.id)) : s'.BuildersSound P := by
  -- Every builder has the number that was in its slot before.
  have hbefore : ∀ other c, s'.workspace.builders.get? other = some c →
      ∃ c₀, s.workspace.builders.get? other = some c₀ ∧ c.id = c₀.id ∧
        (other = slot ∧ c = b' ∨ other ≠ slot ∧ c = c₀) := by
    intro other c hc
    rw [hbuilders, Slots.get?_set] at hc
    split at hc
    · rename_i hother
      cases hc
      exact ⟨b, by rw [hother, hb], hid, .inl ⟨hother, rfl⟩⟩
    · rename_i hother
      exact ⟨c, hc, rfl, .inr ⟨hother, rfl⟩⟩
  constructor
  case number_lt =>
    intro other c hc
    obtain ⟨c₀, hc₀, hsame, -⟩ := hbefore other c hc
    rw [hsame, hcount]
    exact h.number_lt other c₀ hc₀
  case slot_eq =>
    intro other other' c c' hc hc' heq
    obtain ⟨c₀, hc₀, hsame, -⟩ := hbefore other c hc
    obtain ⟨c₀', hc₀', hsame', -⟩ := hbefore other' c' hc'
    exact h.slot_eq other other' c₀ c₀' hc₀ hc₀' (by rw [← hsame, ← hsame', heq])
  case linked_lt =>
    intro l hl
    rw [hcount]
    rcases hlinked l hl with hold | hnew
    · exact h.linked_lt l hold
    · rw [hnew]
      exact h.number_lt slot b hb
  case holds =>
    intro other c hc
    obtain ⟨c₀, hc₀, hsame, ⟨hother, rfl⟩ | ⟨hother, rfl⟩⟩ := hbefore other c hc
    · rw [hid]
      exact hholds
    · have hne : c.id ≠ b.id := fun heq => hother (h.slot_eq other slot c b hc₀ hb heq)
      rw [hothers c.id hne]
      exact h.holds other c hc₀

theorem of_sameImage (hP : ImageInvariant P) (h : s.BuildersSound P) {slot : String}
    {b b' : Builder} (hb : s.workspace.builders.get? slot = some b) (hsame : b.SameImage b')
    (hcount : s'.workspace.builderCount = s.workspace.builderCount)
    (hbuilders : s'.workspace.builders = s.workspace.builders.set slot b')
    (hlinked : s'.linked = s.linked) : s'.BuildersSound P := by
  have hinto : ∀ id, s'.linkedInto id = s.linkedInto id := by
    intro id
    rw [linkedInto, linkedInto, hlinked]
  refine h.of_set hb hsame.id hcount hbuilders ?_ (fun id _ => hinto id) ?_
  · intro l hl
    rw [hlinked] at hl
    exact .inl hl
  · rw [hinto]
    exact hP.sameImage (h.holds slot b hb) hsame

/-- A new builder has a number of its own, so nothing was linked into it. -/
theorem builderMade (hP : ImageInvariant P) (h : s.BuildersSound P) (slot : String) :
    BuildersSound P { s with
    workspace := { s.workspace with
      builderCount := s.workspace.builderCount + 1
      builders := s.workspace.builders.set slot { id := ⟨s.workspace.builderCount⟩ } } } := by
  constructor
  case number_lt =>
    intro other c hc
    rw [Slots.get?_set] at hc
    split at hc
    · cases hc
      exact Nat.lt_succ_self _
    · exact Nat.lt_succ_of_lt (h.number_lt other c hc)
  case slot_eq =>
    intro other other' c c' hc hc' heq
    have hnumber := congrArg BuilderId.number heq
    rw [Slots.get?_set] at hc hc'
    -- The counter is above all numbers that were given out, so the new number meets no old one.
    split at hc <;> split at hc'
    · rename_i hother hother'
      rw [hother, hother']
    · cases hc
      have hlt := h.number_lt other' c' hc'
      simp only at hnumber
      omega
    · cases hc'
      have hlt := h.number_lt other c hc
      simp only at hnumber
      omega
    · exact h.slot_eq other other' c c' hc hc' heq
  case linked_lt => exact fun l hl => Nat.lt_succ_of_lt (h.linked_lt l hl)
  case holds =>
    intro other c hc
    rw [Slots.get?_set] at hc
    split at hc
    · cases hc
      have hnothing : s.linkedInto ⟨s.workspace.builderCount⟩ = [] := by
        rw [linkedInto, List.filter_eq_nil_iff]
        intro l hl heq
        have hlt := h.linked_lt l hl
        rw [of_decide_eq_true heq] at hlt
        exact Nat.lt_irrefl _ hlt
      change P _ (s.linkedInto ⟨s.workspace.builderCount⟩)
      rw [hnothing]
      exact hP.empty _
    · exact h.holds other c hc

theorem finished (h : s.BuildersSound P) (builder : String) (images : Slots Image)
    (journal : Array Event) : BuildersSound P { s with
    workspace := { s.workspace with
      builders := s.workspace.builders.erase builder
      images
      journal } } := by
  have hbefore : ∀ other c, (s.workspace.builders.erase builder).get? other = some c →
      s.workspace.builders.get? other = some c := by
    intro other c hc
    rw [Slots.get?_erase] at hc
    split at hc
    · cases hc
    · exact hc
  exact {
    number_lt := fun other c hc => h.number_lt other c (hbefore other c hc)
    slot_eq := fun other other' c c' hc hc' =>
      h.slot_eq other other' c c' (hbefore other c hc) (hbefore other' c' hc')
    linked_lt := h.linked_lt
    holds := fun other c hc => h.holds other c (hbefore other c hc) }

/-- A link adds a function to the history of its own builder. -/
theorem linked (h : s.BuildersSound P) {builder function : String} {b b' : Builder}
    {f f' : Function} (hb : s.workspace.builders.get? builder = some b)
    (hlink : b.link f = .ok (b', f'))
    (hholds : P b' (s.linkedInto b.id ++ [⟨f, s.textOf function⟩]))
    (hcount : s'.workspace.builderCount = s.workspace.builderCount)
    (hbuilders : s'.workspace.builders = s.workspace.builders.set builder b')
    (hlinked : s'.linked = s.linked ++ [⟨f, s.textOf function⟩]) : s'.BuildersSound P := by
  have hbuilder := (Builder.link_eq_ok hlink).1
  have hinto : s'.linkedInto b.id = s.linkedInto b.id ++ [⟨f, s.textOf function⟩] := by
    simp [linkedInto, hlinked, hbuilder]
  -- Since the function is of this builder, the histories of all others stay as they are.
  refine h.of_set hb (Builder.linked_link hlink).2 hcount hbuilders ?_ ?_ ?_
  · intro l hl
    rw [hlinked] at hl
    rcases List.mem_append.mp hl with hl | hl
    · exact .inl hl
    · rw [List.mem_singleton.mp hl]
      exact .inr hbuilder
  · intro id hid
    have hne : f.builder ≠ id := by
      rw [hbuilder]
      exact hid.symm
    simp [linkedInto, hlinked, hne]
  · rw [hinto]
    exact hholds

/-- **Builders stay sound.** Only a link changes what a builder holds, so all that has to be known
is that links of the functions that there are keep the relation. -/
theorem change_of_links (hP : ImageInvariant P) (h : s.BuildersSound P)
    (hlinks : ∀ builder function b f b' f', s.workspace.builders.get? builder = some b →
      s.workspace.functions.get? function = some f → b.link f = .ok (b', f') →
      P b' (s.linkedInto b.id ++ [⟨f, s.textOf function⟩]))
    (hchange : Change s s') : s'.BuildersSound P := by
  cases hchange with
  | aside => exact ⟨h.number_lt, h.slot_eq, h.linked_lt, h.holds⟩
  | builderMade slot => exact h.builderMade hP slot
  | functionMade slot hb hmade =>
    exact h.of_sameImage hP hb (Builder.sameImage_newFunction hmade) rfl rfl rfl
  | functionRefused hb hmade =>
    exact h.of_sameImage hP hb (Builder.sameImage_newFunction hmade) rfl rfl rfl
  | functionCopied => exact ⟨h.number_lt, h.slot_eq, h.linked_lt, h.holds⟩
  | blockMade slot hb hf hmade =>
    exact h.of_sameImage hP hb (Builder.sameImage_appendBlock hmade) rfl rfl rfl
  | blockRefused hb hf hmade =>
    exact h.of_sameImage hP hb (Builder.sameImage_appendBlock hmade) rfl rfl rfl
  | written => exact ⟨h.number_lt, h.slot_eq, h.linked_lt, h.holds⟩
  | linked journal hb hf hlink =>
    exact h.linked hb hlink (hlinks _ _ _ _ _ _ hb hf hlink) rfl rfl rfl
  | @globalsChanged builder b globals journal hb =>
    have hsame : b.SameImage { b with globals } :=
      ⟨rfl, rfl, rfl, fun _ => rfl, Symbols.Grows.refl _⟩
    exact h.of_sameImage hP hb hsame rfl rfl rfl
  | finished builder images journal => exact h.finished builder images journal

theorem change (hP : BuilderInvariant P) (h : s.BuildersSound P) (hfunctions : s.FunctionsSound)
    (hchange : Change s s') : s'.BuildersSound P := by
  refine h.change_of_links hP.toImageInvariant ?_ hchange
  intro builder function b f b' f' hb hf hlink
  have hopen := (Builder.link_eq_ok hlink).2.1
  exact hP.link (h.holds builder b hb) (hfunctions function f hf hopen) hlink

/-- The start of every session: nothing was made yet. -/
theorem empty : BuildersSound P {} where
  number_lt := fun _ _ hb => nomatch hb
  slot_eq := fun _ _ _ _ hb => nomatch hb
  linked_lt := fun _ hl => nomatch hl
  holds := fun _ _ hb => nomatch hb

end BuildersSound

theorem functionsSound_after (cs : List Command) : (after cs).FunctionsSound := by
  refine after_induction (P := FunctionsSound) ?_ (fun s s' h hchange => h.change hchange) cs
  intro slot f hf
  cases hf

/-- **What a session keeps.** An invariant of builders holds after any commands. -/
theorem buildersSound_after {P : Builder → List LinkedFunction → Prop} (hP : BuilderInvariant P)
    (cs : List Command) : (after cs).BuildersSound P := by
  have hsound : (after cs).FunctionsSound ∧ (after cs).BuildersSound P := by
    refine after_induction (P := fun s => s.FunctionsSound ∧ s.BuildersSound P)
      ⟨functionsSound_after [], .empty⟩ (fun s s' h hchange => ?_) cs
    exact ⟨h.1.change hchange, h.2.change hP h.1 hchange⟩
  exact hsound.2

theorem holds_invariant : BuilderInvariant Builder.Holds where
  empty := Builder.Holds.empty
  sameImage := Builder.Holds.of_sameImage
  link := Builder.Holds.link

/-- After any commands, every builder holds exactly the functions that were linked into it. -/
theorem holds_after (cs : List Command) {slot : String} {b : Builder}
    (hb : (after cs).workspace.builders.get? slot = some b) :
    b.Holds ((after cs).linkedInto b.id) :=
  (buildersSound_after holds_invariant cs).holds slot b hb

end Session

end ImageLinker
