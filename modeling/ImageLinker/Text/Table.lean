import ImageLinker.Text.Columns
import ImageLinker.Text.Lines

/-!
# Ruled tables

A table has a line of titles, a rule, its rows, and another rule. A column is as wide as its widest
line, with a space on each side; a row is as tall as its tallest cell. Every line of the table ends
with a line feed.
-/

namespace ImageLinker

/-- The side of a column to which its cells are moved. -/
inductive Align where
  | left
  | right
deriving DecidableEq, Repr

structure Column where
  title : String
  align : Align := .left
deriving DecidableEq, Repr

/-- Titles over rows of cells. -/
structure Table where
  columns : List Column
  rows : List (List String)
deriving DecidableEq, Repr

namespace Table

/-- Fills a line of text up to the given width. -/
def pad (align : Align) (width : Nat) (line : String) : String :=
  let fill := String.ofList (List.replicate (width - Columns.ofLine line) ' ')
  match align with
  | .left => line ++ fill
  | .right => fill ++ line

/-- The width of a cell, given as its lines. -/
def cellWidth (lines : List String) : Nat :=
  lines.foldl (fun width line => max width (Columns.ofLine line)) 0

/-- The `k`-th line of a row. A cell that has no such line is blank there. -/
def line (layout : List (Align × Nat)) (cells : List (List String)) (k : Nat) : String :=
  let parts := List.zipWith
    (fun (align, width) lines => " " ++ pad align width (lines[k]?.getD "") ++ " ") layout cells
  " " ++ "│".intercalate parts ++ " \n"

/-- A row of cells, each given as its lines. -/
def row (layout : List (Align × Nat)) (cells : List (List String)) : String :=
  let height := cells.foldl (fun height lines => max height lines.length) 1
  String.join ((List.range height).map (line layout cells))

/-- A rule with the given crossings. -/
def rule (crossing : String) (widths : List Nat) : String :=
  let parts := widths.map fun width => String.ofList (List.replicate (width + 2) '─')
  " " ++ crossing.intercalate parts ++ " \n"

def render (t : Table) : String :=
  let titles := t.columns.map fun column => Lines.ofText column.title
  let rows := t.rows.map fun cells => cells.map Lines.ofText
  let widths := rows.foldl
    (fun widths cells => List.zipWith max widths (cells.map cellWidth)) (titles.map cellWidth)
  let layout := List.zipWith (fun column width => (column.align, width)) t.columns widths
  row layout titles ++ rule "┼" widths ++ String.join (rows.map (row layout)) ++ rule "┴" widths

/-- The first line of a cell that has no width. -/
def overhidden? (t : Table) : Option String :=
  t.rows.findSome? fun cells =>
    cells.findSome? fun cell => (Lines.ofText cell).find? Columns.isOverhidden

end Table

end ImageLinker
