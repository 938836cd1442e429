import ImageLinker.Instruction.Encoding

/-!
# Events

What is worth telling while code is built, with the text of each message. Details are traced,
linking is logged for debugging.
-/

namespace ImageLinker

/-- Something that happened while code was built. -/
inductive Event where
  /-- An instruction was written. -/
  | encoded (instruction : Instruction)
  /-- A function refers to a symbol that has no address yet. -/
  | deferred (function target : String)
  /-- A function got its place in the image. -/
  | linked (function : String) (address size blocks : Nat)
  /-- A reference that waited was written. -/
  | patched (fixup : Fixup) (address : Nat)
  /-- An image was completed. -/
  | finished (size symbols : Nat)
deriving DecidableEq, Repr

namespace Event

/-- The message, behind its level. -/
def text : Event → String
  | encoded i =>
    "TRACE " ++ String.ofList (i.text.toList.rightpad 28 ' ') ++
      " [" ++ Hex.separated ", " i.bytes ++ "]"
  | deferred function target => s!"DEBUG `{function}` refers to unlinked `{target}`; deferring"
  | linked function address size blocks =>
    s!"DEBUG linked `{function}` at {Hex.address address}, {size} bytes in {blocks} blocks"
  | patched fixup address => s!"TRACE patching {fixup.text} with {Hex.address address}"
  | finished size symbols => s!"DEBUG finished image: {size} bytes, {symbols} symbols"

end Event

end ImageLinker
