/-!
# Style sequences

A sequence that selects a text style goes from an escape character over an opening bracket to the
letter `m`. A sequence that has no such end goes on to the end of its line.
-/

namespace ImageLinker

/-- How far a reader is into a style sequence. -/
inductive Style where
  | outside
  | escaped
  | inside
deriving DecidableEq, Repr

namespace Style

/-- Reads one character: whether it belongs to a style sequence, and where it leaves the reader. The
escape character belongs to none. -/
def next : Style → Char → Bool × Style
  | outside, c => (false, if c = '\x1b' then escaped else outside)
  | escaped, c => if c = '[' then (true, inside) else (false, outside)
  | inside, c => (true, if c = 'm' then outside else inside)

/-- Reads one character, and keeps it if it belongs to a style sequence. -/
def step (state : List Char × Style) (c : Char) : List Char × Style :=
  let (belongs, style) := state.2.next c
  (if belongs then c :: state.1 else state.1, style)

/-- The characters of a line that belong to style sequences, the last one first. -/
def characters (line : String) : List Char :=
  (line.toList.foldl step ([], outside)).1

end Style

end ImageLinker
