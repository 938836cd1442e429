/-!
# Enumerations with byte codes

The tables of the instruction set are finite, and each entry has a byte code of its own. A table
is the list of its entries together with the code of each; `Coded.ofCode?` is the search for the
entry with a given code, and `ofCode?_eq_some_iff` says that it finds that entry and no other.
-/

namespace ImageLinker

/-- A finite table whose entries are told apart by a byte code. -/
class Coded (α : Type) where
  /-- The name under which the table is reported. -/
  table : String
  /-- The entries, in order of declaration. -/
  all : List α
  code : α → UInt8
  /-- Every entry is listed, and no other entry has its code. -/
  find?_code : ∀ a : α, (all.find? fun b => code b == code a) = some a

/-- A code that stands for no entry of the table it was looked up in. -/
structure UnknownCode where
  table : String
  code : UInt8
deriving DecidableEq, Repr

namespace UnknownCode

def message (e : UnknownCode) : String :=
  s!"No discriminant in enum `{e.table}` matches the value `{e.code.toNat}`"

end UnknownCode

namespace Coded

variable {α : Type} [Coded α]

/-- The entry with the given code. -/
def ofCode? (c : UInt8) : Option α :=
  (all : List α).find? fun a => code a == c

/-- The entry with the given code, or what to report when there is none. -/
def ofCode (c : UInt8) : Except UnknownCode α :=
  match ofCode? c with
  | some a => .ok a
  | none => .error ⟨table α, c⟩

@[simp] theorem ofCode?_code (a : α) : ofCode? (code a) = some a :=
  find?_code a

theorem ofCode?_eq_some_iff {c : UInt8} {a : α} : ofCode? c = some a ↔ code a = c := by
  constructor
  · intro h
    simpa using List.find?_some h
  · rintro rfl
    exact ofCode?_code a

theorem code_injective {a b : α} (h : code a = code b) : a = b := by
  have := ofCode?_code a
  rw [h, ofCode?_code, Option.some.injEq] at this
  exact this.symm

theorem ofCode?_eq_none_iff {c : UInt8} : (ofCode? c : Option α) = none ↔ ∀ a : α, code a ≠ c := by
  constructor
  · intro h a hc
    rw [ofCode?_eq_some_iff.mpr hc] at h
    cases h
  · intro h
    cases hc : (ofCode? c : Option α) with
    | none => rfl
    | some a => exact absurd (ofCode?_eq_some_iff.mp hc) (h a)

end Coded

end ImageLinker
