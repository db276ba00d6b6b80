import Stencil.Terminal.Lines

/-!
# Tables on a terminal

A table has a title over it, heads over its columns, and rows. Every column is as wide as its widest
cell and a blank on either side, and the title is set in the middle of the whole. Heavy rules stand
around the heads and light ones around the rows. All texts are marked up.
-/

namespace Stencil.Terminal

/-- A column: what stands over it, and whether its cells stand to the right. -/
structure Column where
  head : String
  toRight : Bool := false

/-- A table; its rows have a cell for each column. -/
structure Table where
  title : String
  columns : List Column
  rows : List (List String)

namespace Table

/-- The parts of a rule or a row: before the first cell, between two and after the last. -/
structure Edges where
  left : Char
  between : Char
  right : Char

/-- A line of the table: its cells with the edges around them. -/
def lineOf (e : Edges) (cells : List (List Char)) : List Char :=
  e.left :: (List.intercalate [e.between] cells ++ [e.right, '\n'])

/-- A rule across columns of some widths. -/
def rule (e : Edges) (mark : Char) (widths : List Nat) : List Char :=
  lineOf e (widths.map fun w => List.replicate (w + 2) mark)

/-- A cell of so many columns, with a blank on either side. -/
def cell (toRight : Bool) (size : Nat) (cs : List Char) : List Char :=
  let spare := List.replicate (size - Text.columns cs) ' '
  ' ' :: ((if toRight then spare ++ cs else cs ++ spare) ++ [' '])

/-- The lines of a table whose texts are as they are seen. -/
def lines (title : List Char) (heads : List (Bool × List Char)) (rows : List (List (List Char))) :
    List Char :=
  let at? (i : Nat) (row : List (List Char)) := (row[i]?).getD []
  let sized := heads.zipIdx.map fun ((toRight, head), i) =>
    (toRight, rows.foldl (fun w row => max w (Text.columns (at? i row))) (Text.columns head))
  let widths := sized.map (·.2)
  let cells (row : List (List Char)) :=
    sized.zipIdx.map fun ((toRight, w), i) => cell toRight w (at? i row)
  let whole := widths.foldl (fun sum w => sum + w + 3) 1
  ((wrap whole title).map (centre whole)).flatMap (· ++ ['\n']) ++
    rule ⟨'┏', '┳', '┓'⟩ '━' widths ++ lineOf ⟨'┃', '┃', '┃'⟩ (cells (heads.map (·.2))) ++
    rule ⟨'┡', '╇', '┩'⟩ '━' widths ++ rows.flatMap (fun row => lineOf ⟨'│', '│', '│'⟩ (cells row)) ++
    rule ⟨'└', '┴', '┘'⟩ '─' widths

/-- A table as it is printed; none if the tags of a text do not fit. -/
def print? (t : Table) : Option String := do
  let title ← shown? t.title
  let heads ← t.columns.mapM fun c => (shown? c.head).map fun head => (c.toRight, head)
  let rows ← t.rows.mapM fun row => row.mapM shown?
  return String.ofList (lines title heads rows)

end Table

end Stencil.Terminal
