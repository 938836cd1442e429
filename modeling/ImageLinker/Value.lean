import ImageLinker.Entry
import ImageLinker.Function

/-!
# Values

What can be given where an immediate is expected: numbers of fixed width, whatever has a symbol, and
immediates themselves. Only some kinds of values can be the target of a control transfer: those that
take eight bytes whatever the value is (`target?_of_isTarget`).
-/

namespace ImageLinker

/-- A value that can be written into code. Floats are given by their bit patterns. -/
inductive Value where
  /-- A signed or unsigned number. -/
  | integer (width : Width) (value : Int)
  | float32 (bits : UInt32)
  | float64 (bits : UInt64)
  | symbol (id : SymbolId)
  | block (ref : BlockRef)
  | function (f : Function)
  | immediate (v : Immediate)
deriving DecidableEq

namespace Value

def toImmediate : Value → Immediate
  | integer width value => .ofInt width value
  | float32 bits => .float .bits32 bits.toUInt64
  | float64 bits => .float .bits64 bits
  | symbol id => .symbol id
  | block ref => .symbol ref.symbol
  | function f => .symbol f.symbol
  | immediate v => v

/-- Whether values of this kind can be targets. An immediate cannot, since it may have any width. -/
def isTarget : Value → Bool
  | integer .bits64 _ | float64 _ | symbol _ | block _ | function _ => true
  | _ => false

theorem target?_of_isTarget {v : Value} (h : v.isTarget) :
    ∃ t, Target.ofImmediate? v.toImmediate = some t ∧ t.immediate = v.toImmediate := by
  cases v with
  | integer width value =>
    cases width with
    | bits64 => exact ⟨_, rfl, rfl⟩
    | bits8 => cases h
    | bits16 => cases h
    | bits32 => cases h
  | float32 bits => cases h
  | float64 bits => exact ⟨_, rfl, rfl⟩
  | symbol id => exact ⟨_, rfl, rfl⟩
  | block ref => exact ⟨_, rfl, rfl⟩
  | function f => exact ⟨_, rfl, rfl⟩
  | immediate v => cases h

end Value

end ImageLinker
