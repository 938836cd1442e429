import ImageLinker.Proofs.Boundaries
import ImageLinker.Proofs.LinkFrame
import Mathlib.Data.List.Pairwise

/-!
# Patches commute

A block is patched before it joins the image, and the image is patched again when a symbol gets its
address later. The two have to come to the same: whether an address is written into a block or into
the image that the block became a part of, and whatever is written before and after it. This is so
because an address takes the eight bytes of its fixup and no other byte, and because relocation
moves the fixup with the bytes.

* `Code.overwrite_comm`: writes that have no byte in common can be exchanged.
* `Fixup.apply_moved`: a patch within a piece of code is the relocated patch of the whole.
* `applyAll_perm`: patches that have no byte in common, in any order.
* `patch_eq_applyAll`: linking patches code in this way.
* `patching_commutes`: all of this, with what is read back afterwards and when a patch faults.
-/

namespace ImageLinker

/-! ## Two writes -/

namespace Code

theorem overwrite_setIfInBounds (code : Code) {p offset : Nat} {bs : List UInt8} (b : UInt8)
    (h : p < offset ∨ offset + bs.length ≤ p) :
    overwrite (code.setIfInBounds p b) offset bs =
      (code.overwrite offset bs).setIfInBounds p b := by
  induction bs generalizing code offset with
  | nil => rfl
  | cons c bs ih =>
    rw [List.length_cons] at h
    rw [overwrite, overwrite, Array.setIfInBounds_comm b c (by omega), ih _ (by omega)]

/-- Writes to different places can be exchanged. Induction on the bytes of the first one. -/
theorem overwrite_comm (code : Code) {i j : Nat} {bs cs : List UInt8}
    (h : i + bs.length ≤ j ∨ j + cs.length ≤ i) :
    (code.overwrite i bs).overwrite j cs = (code.overwrite j cs).overwrite i bs := by
  induction bs generalizing code i with
  | nil => rfl
  | cons b bs ih =>
    rw [List.length_cons] at h
    rw [overwrite, overwrite, ih _ (by omega), overwrite_setIfInBounds _ _ (by omega)]

end Code

/-! ## One patch -/

namespace Fixup

variable {f : Fixup} {address : Nat} {code patched : Code}

theorem apply_of_le (h : f.offset + addressSize ≤ code.size) :
    f.apply address code = .ok (code.overwrite f.offset (leBytes addressSize address)) :=
  if_pos h

theorem exists_apply_iff :
    (∃ patched, f.apply address code = .ok patched) ↔ f.offset + addressSize ≤ code.size := by
  unfold apply
  split <;> simp_all

theorem exists_fault_iff :
    (∃ fault, f.apply address code = .error fault) ↔ code.size < f.offset + addressSize := by
  unfold apply
  split
  · rename_i h
    simp only [reduceCtorEq, exists_false, false_iff]
    omega
  · rename_i h
    simp only [Except.error.injEq, exists_eq', true_iff]
    omega

/-- It does not matter whether the end of the eight bytes is computed in words of 64 bits: a sum
beyond the last word has become smaller than the offset, so that the bytes do not fit either. -/
theorem fits_words_iff (hoffset : f.offset < addressLimit) (hsize : code.size < addressLimit) :
    f.offset + addressSize ≤ code.size ↔
      f.offset ≤ (f.offset + addressSize) % addressLimit ∧
        (f.offset + addressSize) % addressLimit ≤ code.size := by
  unfold addressLimit addressSize at *
  omega

/-- A patch replaces the eight bytes of its fixup and keeps what is in front of them and behind
them. -/
theorem parts_of_apply (h : f.apply address code = .ok patched) :
    ∃ front old back : List UInt8, front.length = f.offset ∧ old.length = addressSize ∧
      code = (front ++ old ++ back).toArray ∧
      patched = (front ++ leBytes addressSize address ++ back).toArray := by
  have hfits := exists_apply_iff.mp ⟨_, h⟩
  have hfront : (code.toList.take f.offset).length = f.offset := by
    rw [List.length_take, Array.length_toList]
    omega
  have hold : ((code.toList.drop f.offset).take addressSize).length = addressSize := by
    rw [List.length_take, List.length_drop, Array.length_toList]
    omega
  have hcode : code = (code.toList.take f.offset ++ (code.toList.drop f.offset).take addressSize ++
      (code.toList.drop f.offset).drop addressSize).toArray := by
    rw [List.append_assoc, List.take_append_drop, List.take_append_drop, Array.toArray_toList]
  have happly := apply_append f.symbol address (code.toList.take f.offset) _
    ((code.toList.drop f.offset).drop addressSize) hold
  rw [hfront, ← hcode, h, Except.ok.injEq] at happly
  exact ⟨_, _, _, hfront, hold, hcode, happly⟩

theorem readAddress_apply (h : f.apply address code = .ok patched)
    (haddress : address < addressLimit) :
    readAddress (patched.toList.drop f.offset) = some address := by
  obtain ⟨front, old, back, hfront, -, -, rfl⟩ := parts_of_apply h
  rw [List.append_assoc, List.drop_left' hfront]
  exact readAddress_leBytes address back haddress

/-- **A patch moves with its code.** What stands in front and behind does not matter. -/
theorem apply_moved (before after : Code) (h : f.apply address code = .ok patched) :
    apply { f with offset := f.offset + before.size } address (before ++ code ++ after) =
      .ok (before ++ patched ++ after) := by
  obtain ⟨front, old, back, hfront, hold, rfl, rfl⟩ := parts_of_apply h
  have hmoved := apply_append f.symbol address (before.toList ++ front) old
    (back ++ after.toList) hold
  rw [List.length_append, Array.length_toList, hfront, Nat.add_comm] at hmoved
  have hwhole : ∀ middle : List UInt8, before ++ (front ++ middle ++ back).toArray ++ after =
      (before.toList ++ front ++ middle ++ (back ++ after.toList)).toArray :=
    fun middle => Array.ext' (by simp)
  rw [hwhole, hwhole, hmoved]

/-- The two fixups have no byte in common. -/
def Apart (f g : Fixup) : Prop :=
  f.offset + addressSize ≤ g.offset ∨ g.offset + addressSize ≤ f.offset

instance (f g : Fixup) : Decidable (f.Apart g) :=
  inferInstanceAs (Decidable (_ ∨ _))

end Fixup

/-! ## Many patches -/

/-- Applies fixups one after the other, each with an address of its own. -/
def applyAll (writes : List (Fixup × Nat)) (code : Code) : Except Fault Code :=
  writes.foldlM (fun code w => w.1.apply w.2 code) code

/-- The code with an address over the bytes of its fixup. -/
def Code.write (code : Code) (w : Fixup × Nat) : Code :=
  code.overwrite w.1.offset (leBytes addressSize w.2)

section Writes

variable {writes order : List (Fixup × Nat)} {code patched : Code}

theorem applyAll_cons (w : Fixup × Nat) (writes : List (Fixup × Nat)) (code : Code) :
    applyAll (w :: writes) code = w.1.apply w.2 code >>= applyAll writes :=
  List.foldlM_cons

/-- If the eight bytes of each fixup lie in the code, then there is no fault. Induction on the
fixups; the code keeps its size. -/
theorem applyAll_eq (h : ∀ w ∈ writes, w.1.offset + addressSize ≤ code.size) :
    applyAll writes code = .ok (writes.foldl Code.write code) := by
  induction writes generalizing code with
  | nil => rfl
  | cons w writes ih =>
    have hfirst : w.1.apply w.2 code = .ok (code.write w) :=
      Fixup.apply_of_le (h w List.mem_cons_self)
    have hrest : ∀ v ∈ writes, v.1.offset + addressSize ≤ (code.write w).size := by
      intro v hv
      rw [Code.write, Code.size_overwrite]
      exact h v (List.mem_cons_of_mem _ hv)
    rw [applyAll_cons, hfirst, List.foldl_cons, ← ih hrest]
    rfl

theorem foldl_write_perm (hapart : writes.Pairwise fun v w => v.1.Apart w.1)
    (horder : order.Perm writes) (code : Code) :
    order.foldl Code.write code = writes.foldl Code.write code := by
  have hsymm : Std.Symm fun v w : Fixup × Nat => v.1.Apart w.1 := ⟨fun _ _ => Or.symm⟩
  have hcomm : ∀ v ∈ order, ∀ w ∈ order, ∀ c : Code,
      (c.write v).write w = (c.write w).write v := by
    intro v hv w hw c
    -- The fold may ask about one write and itself, of which `hapart` says nothing.
    by_cases heq : v = w
    · rw [heq]
    · have hvw := hapart.forall (horder.subset hv) (horder.subset hw) heq
      exact Code.overwrite_comm c (by rwa [length_leBytes, length_leBytes])
  exact horder.foldl_eq' hcomm code

/-- **Patches commute.** -/
theorem applyAll_perm (hfits : ∀ w ∈ writes, w.1.offset + addressSize ≤ code.size)
    (hapart : writes.Pairwise fun v w => v.1.Apart w.1) (horder : order.Perm writes) :
    applyAll order code = applyAll writes code := by
  rw [applyAll_eq fun w hw => hfits w (horder.subset hw), applyAll_eq hfits,
    foldl_write_perm hapart horder]

/-- Every address can be read back, since its fixup might as well have been the last one. -/
theorem readAddress_applyAll (h : applyAll writes code = .ok patched)
    (hfits : ∀ w ∈ writes, w.1.offset + addressSize ≤ code.size)
    (hapart : writes.Pairwise fun v w => v.1.Apart w.1) {w : Fixup × Nat} (hw : w ∈ writes)
    (haddress : w.2 < addressLimit) :
    readAddress (patched.toList.drop w.1.offset) = some w.2 := by
  obtain ⟨front, back, rfl⟩ := List.append_of_mem hw
  have hlast : (front ++ back ++ [w]).Perm (front ++ w :: back) :=
    (List.perm_append_singleton w _).trans List.perm_middle.symm
  rw [← applyAll_perm hfits hapart hlast, applyAll, List.foldlM_append] at h
  obtain ⟨before, -, h⟩ := bind_eq_ok h
  rw [List.foldlM_cons] at h
  obtain ⟨after, happly, h⟩ := bind_eq_ok h
  cases h
  exact Fixup.readAddress_apply happly haddress

/-- Bytes that are under no fixup stay. -/
theorem applyAll_frame (h : applyAll writes code = .ok patched) :
    patched.size = code.size ∧ ∀ p, (∀ w ∈ writes, ¬w.1.Covers p) → patched[p]? = code[p]? := by
  have hperform : (writes.map fun w => ImageWrite.overwrite w.1 w.2).foldlM ImageWrite.perform
      code = .ok patched := by
    rw [List.foldlM_map]
    exact h
  obtain ⟨hsize, hkeep⟩ := getElem?_perform hperform
  have hsame : patched.size = code.size := by
    simpa [Function.comp_def, ImageWrite.growth] using hsize
  refine ⟨hsame, fun p hp => ?_⟩
  by_cases hin : p < code.size
  · refine hkeep p hin fun f hf => ?_
    obtain ⟨w, hw, rfl⟩ : ∃ w ∈ writes, w.1 = f := by
      simpa [overwritten, ImageWrite.overwritten?] using hf
    exact hp w hw
  · rw [Array.getElem?_eq_none (by omega), Array.getElem?_eq_none (by omega)]

end Writes

/-! ## What linking patches -/

/-- The fixups whose symbols have addresses, with these. -/
def Symbols.served (symbols : Symbols) (fixups : List Fixup) : List (Fixup × Nat) :=
  fixups.filterMap fun f => (symbols.addressOf? f.symbol).map (f, ·)

/-- The loop of `patch` applies the fixups whose symbols have addresses, and puts the others aside.
Induction on the fixups, with what was put aside already. -/
theorem foldlM_patchStep_eq {symbols : Symbols} {fixups : List Fixup}
    (hknown : ∀ f ∈ fixups, (symbols.get? f.symbol).isSome) (code : Code) (waiting : Array Fixup) :
    fixups.foldlM (patchStep symbols) (code, waiting) =
      (applyAll (symbols.served fixups) code).map fun code =>
        (code, waiting ++ fixups.filter symbols.isWaiting) := by
  induction fixups generalizing code waiting with
  | nil => simp [Symbols.served, applyAll, pure, Except.pure, Except.map]
  | cons f fixups ih =>
    have ih := ih fun g hg => hknown g (List.mem_cons_of_mem _ hg)
    rw [List.foldlM_cons]
    cases ha : symbols.addressOf? f.symbol with
    | some a =>
      have hserved : symbols.served (f :: fixups) = (f, a) :: symbols.served fixups := by
        simp [Symbols.served, ha]
      have hfilter : (f :: fixups).filter symbols.isWaiting = fixups.filter symbols.isWaiting := by
        simp [Symbols.isWaiting, ha]
      rw [patchStep_of_address ha, hserved, hfilter, applyAll_cons]
      cases f.apply a code with
      | error fault => rfl
      | ok patched => exact ih patched waiting
    | none =>
      have hserved : symbols.served (f :: fixups) = symbols.served fixups := by
        simp [Symbols.served, ha]
      have hfilter : waiting ++ (f :: fixups).filter symbols.isWaiting =
          waiting.push f ++ fixups.filter symbols.isWaiting := by
        simp [Symbols.isWaiting, ha]
      rw [patchStep_of_waiting (hknown f List.mem_cons_self) ha, hserved, hfilter]
      exact ih code (waiting.push f)

theorem patch_eq_applyAll {symbols : Symbols} {fixups : List Fixup}
    (hknown : ∀ f ∈ fixups, (symbols.get? f.symbol).isSome) (code : Code) :
    patch symbols code fixups = (applyAll (symbols.served fixups) code).map fun code =>
      (code, fixups.filter symbols.isWaiting) := by
  rw [patch, foldlM_patchStep_eq hknown]
  cases applyAll (symbols.served fixups) code with
  | error fault => rfl
  | ok patched => simp [Except.map, bind, Except.bind, pure, Except.pure]

/-- Linking may serve fixups that are apart in any order. -/
theorem patch_perm {symbols : Symbols} {code : Code} {fixups order : List Fixup}
    (hknown : ∀ f ∈ fixups, (symbols.get? f.symbol).isSome)
    (hfits : ∀ f ∈ fixups, f.offset + addressSize ≤ code.size)
    (hapart : fixups.Pairwise Fixup.Apart) (horder : order.Perm fixups) :
    patch symbols code order =
      .ok ((symbols.served fixups).foldl Code.write code, order.filter symbols.isWaiting) := by
  have hserved : ∀ w ∈ symbols.served fixups, w.1 ∈ fixups := by
    intro w hw
    obtain ⟨f, hf, hw⟩ := List.mem_filterMap.mp hw
    obtain ⟨a, -, rfl⟩ := Option.map_eq_some_iff.mp hw
    exact hf
  have hwrites : (symbols.served fixups).Pairwise fun v w => v.1.Apart w.1 := by
    refine hapart.filterMap _ ?_
    intro f g hfg v hv w hw
    obtain ⟨a, -, rfl⟩ := Option.map_eq_some_iff.mp hv
    obtain ⟨b, -, rfl⟩ := Option.map_eq_some_iff.mp hw
    exact hfg
  have hin : ∀ w ∈ symbols.served fixups, w.1.offset + addressSize ≤ code.size :=
    fun w hw => hfits w.1 (hserved w hw)
  have hsame : (symbols.served order).Perm (symbols.served fixups) := horder.filterMap _
  rw [patch_eq_applyAll fun f hf => hknown f (horder.subset hf), applyAll_perm hin hwrites hsame,
    applyAll_eq hin]
  rfl

/-- **Patching commutes with relocation and with other patches.** A patch of a piece of code is the
relocated patch of all the code that the piece is in; afterwards the address can be read there, and
the other bytes are as they were. Patches that have no byte in common can be made in any order, and
each of them can be read back; so linking may serve fixups in any order. A patch faults if and only
if its eight bytes do not lie in the code, even where the end of these bytes lies beyond the last
address. -/
theorem patching_commutes :
    (∀ (f : Fixup) (address : Nat) (before code after : Code),
      f.offset + addressSize ≤ code.size → address < addressLimit →
      before.size + code.size + after.size < addressLimit →
      ∃ patched moved, f.apply address code = .ok patched ∧ f.relocated before.size = .ok moved ∧
        moved.apply address (before ++ code ++ after) = .ok (before ++ patched ++ after) ∧
        readAddress ((before ++ patched ++ after).toList.drop (before.size + f.offset)) =
          some address ∧
        (before ++ patched ++ after).size = (before ++ code ++ after).size ∧
        ∀ p, p < before.size + f.offset ∨ before.size + f.offset + addressSize ≤ p →
          (before ++ patched ++ after)[p]? = (before ++ code ++ after)[p]?) ∧
    (∀ (code : Code) (writes : List (Fixup × Nat)),
      (∀ w ∈ writes, w.1.offset + addressSize ≤ code.size ∧ w.2 < addressLimit) →
      writes.Pairwise (fun v w => v.1.Apart w.1) →
      ∃ patched, (∀ order, order.Perm writes → applyAll order code = .ok patched) ∧
        (∀ w ∈ writes, readAddress (patched.toList.drop w.1.offset) = some w.2) ∧
        patched.size = code.size ∧
        ∀ p, (∀ w ∈ writes, ¬w.1.Covers p) → patched[p]? = code[p]?) ∧
    (∀ (symbols : Symbols) (code : Code) (fixups : List Fixup),
      (∀ f ∈ fixups, (symbols.get? f.symbol).isSome ∧ f.offset + addressSize ≤ code.size) →
      fixups.Pairwise Fixup.Apart →
      ∃ patched, ∀ order, order.Perm fixups →
        patch symbols code order = .ok (patched, order.filter symbols.isWaiting)) ∧
    ∀ (f : Fixup) (address : Nat) (code : Code),
      ((∃ fault, f.apply address code = .error fault) ↔ code.size < f.offset + addressSize) ∧
      (f.offset < addressLimit → code.size < addressLimit →
        ((∃ patched, f.apply address code = .ok patched) ↔
          f.offset ≤ (f.offset + addressSize) % addressLimit ∧
            (f.offset + addressSize) % addressLimit ≤ code.size)) := by
  refine ⟨?_, ?_, ?_, ?_⟩
  · intro f address before code after hfits haddress hlimit
    have hmoved : f.relocated before.size = .ok { f with offset := f.offset + before.size } :=
      Fixup.relocated_of_lt (by omega)
    obtain ⟨patched, happly⟩ := Fixup.exists_apply_iff.mpr hfits
    have hwhole := Fixup.apply_moved before after happly
    obtain ⟨hsize, hkeep⟩ := Fixup.apply_frame hwhole
    refine ⟨patched, _, happly, hmoved, hwhole, ?_, hsize, ?_⟩
    · rw [Nat.add_comm before.size]
      exact Fixup.readAddress_apply hwhole haddress
    · intro p hp
      refine hkeep p fun hcovers => ?_
      simp only [Fixup.Covers] at hcovers
      omega
  · intro code writes hwrites hapart
    have hfits := fun w hw => (hwrites w hw).1
    have happly := applyAll_eq hfits
    obtain ⟨hsize, hkeep⟩ := applyAll_frame happly
    refine ⟨_, fun order horder => (applyAll_perm hfits hapart horder).trans happly, ?_, hsize,
      hkeep⟩
    intro w hw
    exact readAddress_applyAll happly hfits hapart hw (hwrites w hw).2
  · intro symbols code fixups hfixups hapart
    refine ⟨_, fun order horder => patch_perm ?_ ?_ hapart horder⟩
    · exact fun f hf => (hfixups f hf).1
    · exact fun f hf => (hfixups f hf).2
  · intro f address code
    refine ⟨Fixup.exists_fault_iff, fun hoffset hsize => ?_⟩
    rw [Fixup.exists_apply_iff, Fixup.fits_words_iff hoffset hsize]

/-- Two fixups side by side at the end of the code, one of them with the last address: both can be
read back whichever is served first. Where one of two symbols has no address, its bytes stay in
either order. Moved behind two bytes, a patch writes the same. At an offset so large that the end
would wrap around into the code, a patch faults. -/
theorem patching_commutes_sideBySide :
    (∃ patched, applyAll [(⟨⟨1⟩, 9⟩, 0xFFFFFFFFFFFFFFFF), (⟨⟨0⟩, 1⟩, 0x0102)]
        (Array.replicate 17 0xFF) = .ok patched ∧
      applyAll [(⟨⟨0⟩, 1⟩, 0x0102), (⟨⟨1⟩, 9⟩, 0xFFFFFFFFFFFFFFFF)]
        (Array.replicate 17 0xFF) = .ok patched ∧
      readAddress (patched.toList.drop 1) = some 0x0102 ∧
      readAddress (patched.toList.drop 9) = some 0xFFFFFFFFFFFFFFFF ∧
      patched[0]? = some 0xFF) ∧
    (∃ patched, patch ⟨#[⟨"known", some 0x40, 0⟩, ⟨"unknown", none, 0⟩]⟩ (Array.replicate 17 0)
        [⟨⟨1⟩, 9⟩, ⟨⟨0⟩, 1⟩] = .ok (patched, [⟨⟨1⟩, 9⟩]) ∧
      patch ⟨#[⟨"known", some 0x40, 0⟩, ⟨"unknown", none, 0⟩]⟩ (Array.replicate 17 0)
        [⟨⟨0⟩, 1⟩, ⟨⟨1⟩, 9⟩] = .ok (patched, [⟨⟨1⟩, 9⟩])) ∧
    (∃ patched, Fixup.apply ⟨⟨0⟩, 1⟩ 0x0102 (Array.replicate 9 0xFF) = .ok patched ∧
      Fixup.apply ⟨⟨0⟩, 3⟩ 0x0102 (#[1, 2] ++ Array.replicate 9 0xFF ++ #[3]) =
        .ok (#[1, 2] ++ patched ++ #[3])) ∧
    ∃ fault, Fixup.apply ⟨⟨0⟩, 0xFFFFFFFFFFFFFFFC⟩ 0 (Array.replicate 17 0xFF) = .error fault := by
  obtain ⟨hmoves, hcommutes, hserves, hfaults⟩ := patching_commutes
  refine ⟨?_, ?_, ?_, (hfaults _ _ _).1.mpr (by decide)⟩
  · obtain ⟨patched, horders, hread, -, hkeep⟩ := hcommutes (Array.replicate 17 0xFF)
      [(⟨⟨0⟩, 1⟩, 0x0102), (⟨⟨1⟩, 9⟩, 0xFFFFFFFFFFFFFFFF)] (by decide) (by decide)
    refine ⟨patched, horders _ (.swap _ _ _), horders _ (.refl _), hread _ (.head _),
      hread _ (.tail _ (.head _)), ?_⟩
    rw [hkeep 0 (by decide)]
    rfl
  · obtain ⟨patched, horders⟩ := hserves
      ⟨#[⟨"known", some 0x40, 0⟩, ⟨"unknown", none, 0⟩]⟩ (Array.replicate 17 0)
      [⟨⟨0⟩, 1⟩, ⟨⟨1⟩, 9⟩] (by decide) (by decide)
    exact ⟨patched, horders _ (.swap _ _ _), horders _ (.refl _)⟩
  · obtain ⟨patched, moved, happly, hmoved, hwhole, -⟩ := hmoves ⟨⟨0⟩, 1⟩ 0x0102 #[1, 2]
      (Array.replicate 9 0xFF) #[3] (by decide) (by decide) (by decide)
    cases hmoved
    exact ⟨patched, happly, hwhole⟩

end ImageLinker
