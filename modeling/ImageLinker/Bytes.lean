/-!
# Bytes of code

Code is an array of bytes that grows at its end and is patched in place. Numbers stand in it
least significant byte first.

* `leBytes n v` writes the `n` low bytes of `v`, and `ofLeBytes` reads a run of bytes back;
  `ofLeBytes_leBytes` and `leBytes_ofLeBytes` say that they are inverse up to the width.
* `split? n bs` takes exactly `n` bytes off the front of `bs`, or fails.
* `Code.overwrite` replaces bytes from an offset on; its view is
  `Code.toList_overwrite`: the part before, the new bytes, the part behind.
-/

namespace ImageLinker

/-- A run of encoded bytes. -/
abbrev Code := Array UInt8

/-- The most bytes that code can have, or that can be reserved for it. -/
def maxCapacity : Nat := 0x7FFFFFFFFFFFFFFF

/-- The number of bytes that an address occupies in code. -/
def addressSize : Nat := 8

/-- Every address lies below this bound, since it has to fit into its bytes. -/
def addressLimit : Nat := 0x10000000000000000

/-! ## Numbers as bytes -/

/-- The `n` low bytes of `v`, least significant first. -/
def leBytes : Nat → Nat → List UInt8
  | 0, _ => []
  | n + 1, v => UInt8.ofNat v :: leBytes n (v / 256)

/-- The number that a run of bytes stands for, least significant first. -/
def ofLeBytes : List UInt8 → Nat
  | [] => 0
  | b :: bs => b.toNat + 256 * ofLeBytes bs

@[simp] theorem length_leBytes (n v : Nat) : (leBytes n v).length = n := by
  induction n generalizing v with
  | zero => rfl
  | succ n ih => simp [leBytes, ih]

theorem ofLeBytes_lt (bs : List UInt8) : ofLeBytes bs < Nat.pow 256 bs.length := by
  induction bs with
  | nil => simp [ofLeBytes]
  | cons b bs ih =>
    have hb := b.toNat_lt
    have hpow : Nat.pow 256 (b :: bs).length = Nat.pow 256 bs.length * 256 := rfl
    rw [ofLeBytes, hpow]
    omega

/-- Reading back `n` bytes gives the number modulo `256 ^ n`. -/
theorem ofLeBytes_leBytes (n v : Nat) : ofLeBytes (leBytes n v) = v % Nat.pow 256 n := by
  induction n generalizing v with
  | zero => simp [leBytes, ofLeBytes, Nat.mod_one]
  | succ n ih =>
    have hb : (UInt8.ofNat v).toNat = v % 256 := UInt8.toNat_ofNat'
    have hpow : Nat.pow 256 (n + 1) = Nat.pow 256 n * 256 := rfl
    rw [leBytes, ofLeBytes, ih, hb, hpow, Nat.mul_comm (Nat.pow 256 n), Nat.mod_mul]

/-- Writing back what was read gives the same bytes. -/
theorem leBytes_ofLeBytes (bs : List UInt8) : leBytes bs.length (ofLeBytes bs) = bs := by
  induction bs with
  | nil => rfl
  | cons b bs ih =>
    have hb := b.toNat_lt
    have hdiv : (b.toNat + 256 * ofLeBytes bs) / 256 = ofLeBytes bs := by omega
    have hmod : UInt8.ofNat (b.toNat + 256 * ofLeBytes bs) = b := by
      apply UInt8.toNat_inj.mp
      rw [UInt8.toNat_ofNat']
      omega
    simp [leBytes, ofLeBytes, hdiv, hmod, ih]

theorem leBytes_zero (n : Nat) : leBytes n 0 = List.replicate n 0 := by
  induction n with
  | zero => rfl
  | succ n ih => simp [leBytes, ih, List.replicate_succ]

/-! ## Taking bytes off the front -/

/-- The first `n` bytes and what follows them, if there are that many. -/
def split? : Nat → List UInt8 → Option (List UInt8 × List UInt8)
  | 0, bs => some ([], bs)
  | _ + 1, [] => none
  | n + 1, b :: bs => (split? n bs).map fun (front, rest) => (b :: front, rest)

theorem split?_eq_some_iff {n : Nat} {bs front rest : List UInt8} :
    split? n bs = some (front, rest) ↔ front.length = n ∧ bs = front ++ rest := by
  induction n generalizing bs front with
  | zero => cases front <;> simp [split?, eq_comm]
  | succ n ih =>
    cases bs with
    | nil => cases front <;> simp [split?]
    | cons b bs =>
      cases front with
      | nil => simp [split?]
      | cons c front =>
        cases hs : split? n bs with
        | none =>
          have hnone : ¬ (front.length = n ∧ bs = front ++ rest) := by
            rw [← ih, hs]; simp
          simp only [split?, hs, Option.map_none, List.length_cons, Nat.add_right_cancel_iff,
            List.cons_append, List.cons.injEq, reduceCtorEq, false_iff]
          exact fun h => hnone ⟨h.1, h.2.2⟩
        | some p =>
          obtain ⟨front', rest'⟩ := p
          have hsome := @ih bs front
          rw [hs] at hsome
          simp only [Option.some.injEq, Prod.mk.injEq] at hsome
          simp only [split?, hs, Option.map_some, Option.some.injEq, Prod.mk.injEq,
            List.cons.injEq, List.length_cons, Nat.add_right_cancel_iff, List.cons_append]
          constructor
          · rintro ⟨⟨hb, hf⟩, hr⟩
            have := hsome.mp ⟨hf, hr⟩
            exact ⟨this.1, hb, this.2⟩
          · rintro ⟨hlen, hb, hbs⟩
            have := hsome.mpr ⟨hlen, hbs⟩
            exact ⟨⟨hb, this.1⟩, this.2⟩

theorem split?_eq_none_iff {n : Nat} {bs : List UInt8} :
    split? n bs = none ↔ bs.length < n := by
  induction n generalizing bs with
  | zero => simp [split?]
  | succ n ih => cases bs <;> simp [split?, ih]

/-- The address that a run of bytes starts with, if it is long enough to hold one. -/
def readAddress (bytes : List UInt8) : Option Nat :=
  (split? addressSize bytes).map fun (front, _) => ofLeBytes front

/-! ## Overwriting -/

namespace Code

/-- Replaces the bytes from `offset` on by the given ones. Callers see to it that they fit. -/
def overwrite (code : Code) (offset : Nat) : List UInt8 → Code
  | [] => code
  | b :: bs => overwrite (code.setIfInBounds offset b) (offset + 1) bs

@[simp] theorem size_overwrite (code : Code) (offset : Nat) (bs : List UInt8) :
    (code.overwrite offset bs).size = code.size := by
  induction bs generalizing code offset with
  | nil => rfl
  | cons b bs ih => simp [overwrite, ih]

/-- What stands before `offset` and behind the new bytes stays. -/
theorem toList_overwrite (code : Code) (offset : Nat) (bs : List UInt8)
    (h : offset + bs.length ≤ code.size) :
    (code.overwrite offset bs).toList =
      code.toList.take offset ++ bs ++ code.toList.drop (offset + bs.length) := by
  induction bs generalizing code offset with
  | nil => simp [overwrite]
  | cons b bs ih =>
    simp only [List.length_cons] at h
    have hlt : offset < code.toList.length := by simpa using (by omega : offset < code.size)
    have hset : (code.setIfInBounds offset b).toList =
        (code.toList.take offset ++ [b]) ++ code.toList.drop (offset + 1) := by
      rw [Array.toList_setIfInBounds, List.set_eq_take_append_cons_drop, if_pos hlt]
      simp
    have hfront : (code.toList.take offset ++ [b]).length = offset + 1 := by
      rw [List.length_append, List.length_take, List.length_singleton]; omega
    have hback : (code.toList.take offset ++ [b] ++ code.toList.drop (offset + 1)).drop
        (offset + 1 + bs.length) = code.toList.drop (offset + (bs.length + 1)) := by
      rw [← List.drop_drop, List.drop_left' hfront, List.drop_drop]
      congr 1
      omega
    rw [overwrite, ih _ _ (by rw [Array.size_setIfInBounds]; omega), hset,
      List.take_left' hfront, hback]
    simp

end Code

end ImageLinker
