/-!
# Lines of a text

A line ends with a line feed, or with a carriage return and a line feed. What follows the last line
end is a line of its own unless it is empty. A carriage return elsewhere is part of its line.
-/

namespace ImageLinker.Lines

/-- A line from its characters in reverse, without the carriage return before its line feed. -/
def finished : List Char → String
  | '\r' :: cs => String.ofList cs.reverse
  | cs => String.ofList cs.reverse

/-- The lines of the rest of a text. `current` is the line begun so far, in reverse. -/
def rest (current : List Char) : List Char → List String
  | [] => if current.isEmpty then [] else [String.ofList current.reverse]
  | '\n' :: cs => finished current :: rest [] cs
  | c :: cs => rest (c :: current) cs

/-- The lines of a text, without their ends. -/
def ofText (s : String) : List String :=
  rest [] s.toList

end ImageLinker.Lines
