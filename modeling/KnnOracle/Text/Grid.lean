/-
Grids of text cells.

A grid has a head and rows of cells, all of one number of columns. A
column is as wide as the widest line in it, and a row as high as its
highest cell; cells stand at the left and at the top, with a blank on
both sides. Lines are drawn around and between all cells, a double one
under the head.

No width is more than `widest`. Lines wider than that are wrapped, and a
column with its two blanks counts for no more either: the lines of its
cells stand out by what is too much, while what is drawn or left empty
keeps to the count.
-/
import KnnOracle.Json.Value
import KnnOracle.Text.Wrap

namespace KnnOracle.Text

/-- A grid. -/
structure Grid where
  head : List String
  rows : List (List String)

namespace Grid

/-- The most columns that are counted. -/
def widest : Nat := 65535

/-- The lines of a cell, as they were written. -/
def cellLines (cell : String) : List (List Char) :=
  pieces (· == '\n') cell.toList

/-- The lines of a cell that fit into a column. -/
def fittedLines (w : Nat) (cell : String) : List (List Char) :=
  (cellLines cell).flatMap fun line => if width line ≤ w then [line]
    else wrap w line

/-- The width of the widest line of a cell. -/
def cellWidth (cell : String) : Nat :=
  min widest (((cellLines cell).map width).foldl max 0)

/-- The columns of a column's width and the blanks on its two sides. -/
def outerWidth (w : Nat) : Nat := min widest (w + 2)

/-- The widths of the columns. -/
def columnWidths (g : Grid) : List Nat :=
  g.rows.foldl (fun widths row => (widths.zip row).map fun (w, cell) =>
    max w (cellWidth cell))
    (g.head.map cellWidth)

/-- The characters that a horizontal line is drawn with. -/
structure Stroke where
  left : Char
  line : Char
  cross : Char
  right : Char

/-- The line on top. -/
def Stroke.top : Stroke := ⟨'┌', '─', '┬', '┐'⟩

/-- The line under the head. -/
def Stroke.head : Stroke := ⟨'╞', '═', '╪', '╡'⟩

/-- The line between rows. -/
def Stroke.inner : Stroke := ⟨'├', '╌', '┼', '┤'⟩

/-- The line at the bottom. -/
def Stroke.bottom : Stroke := ⟨'└', '─', '┴', '┘'⟩

/-- A horizontal line. -/
def Stroke.draw (s : Stroke) (widths : List Nat) : List Char :=
  s.left :: Json.joinWith [s.cross]
    (widths.map fun w => List.replicate (outerWidth w) s.line)
    ++ [s.right]

/-- A line of a cell, filled up to the width of its column. -/
def pad (w : Nat) (line : List Char) : List Char :=
  ' ' :: line ++ List.replicate (w - width line) ' ' ++ [' ']

/-- The line number `i` of a row. -/
def rowLine (widths : List Nat) (cells : List (List (List Char))) (i : Nat) :
    List Char :=
  '│' :: Json.joinWith ['┆'] ((widths.zip cells).map fun (w, lines) =>
      match lines[i]? with
      | some line => pad w line
      | none => List.replicate (outerWidth w) ' ')
    ++ ['│']

/-- The lines of a row. -/
def rowLines (widths : List Nat) (row : List String) : List (List Char) :=
  let cells := (widths.zip row).map fun (w, cell) => fittedLines w cell
  let height := (cells.map List.length).foldl max 0
  (List.range height).map (rowLine widths cells)

/-- The lines of the rows, with lines drawn between them. -/
def bodyLines (widths : List Nat) (rows : List (List String)) :
    List (List Char) :=
  ((rows.map (rowLines widths)).intersperse [Stroke.inner.draw widths]).flatten

/-- All lines of a grid. -/
def lines (g : Grid) : List (List Char) :=
  let widths := g.columnWidths
  Stroke.top.draw widths :: rowLines widths g.head ++ [Stroke.head.draw widths]
    ++ bodyLines widths g.rows ++ [Stroke.bottom.draw widths]

/-- The text of a grid, without a line break at its end. -/
def text (g : Grid) : String := String.ofList (Json.joinWith ['\n'] g.lines)

end Grid

end KnnOracle.Text
