import SchemaWire.Text.Width
import SchemaWire.Text.Words

/-! Tables drawn with lines.

Each column is as wide as its widest cell and a space on either side. A cell of several lines makes
its row as high.
-/

set_option autoImplicit false

namespace SchemaWire.CommandLine

structure Table where
  header : List String
  rows : List (List String)
  deriving DecidableEq, Repr

namespace Table

/-- The characters of a horizontal line: at the left end, along a column, between columns, and at
the right end. -/
structure Rule where
  left : Char
  along : Char
  between : Char
  right : Char

def top : Rule := ⟨'┌', '─', '┬', '┐'⟩

def belowHeader : Rule := ⟨'╞', '═', '╪', '╡'⟩

def betweenRows : Rule := ⟨'├', '╌', '┼', '┤'⟩

def bottom : Rule := ⟨'└', '─', '┴', '┘'⟩

def cellLines (cell : String) : List (List Char) := Text.lines cell.toList

def cellWidth (cell : String) : Nat := ((cellLines cell).map Text.columns).foldl max 0

def widths (table : Table) : List Nat :=
  table.rows.foldl (fun widths row => List.zipWith max widths (row.map cellWidth))
    (table.header.map cellWidth)

def drawRule (widths : List Nat) (rule : Rule) : List Char :=
  let segments := widths.map fun width => List.replicate (width + 2) rule.along
  rule.left :: [rule.between].intercalate segments ++ [rule.right]

def drawCell (width : Nat) (line : List Char) : List Char :=
  ' ' :: line ++ List.replicate (width + 1 - Text.columns line) ' '

def drawRow (widths : List Nat) (row : List String) : List (List Char) :=
  let cells := row.map cellLines
  let height := (cells.map List.length).foldl max 0
  (List.range height).map fun index =>
    let lines := cells.map fun lines => (lines[index]?).getD []
    '│' :: ['┆'].intercalate (List.zipWith drawCell widths lines) ++ ['│']

def draw (table : Table) : List (List Char) :=
  let widths := table.widths
  let rows := table.rows.map (drawRow widths)
  [drawRule widths top] ++ drawRow widths table.header ++ [drawRule widths belowHeader]
    ++ [drawRule widths betweenRows].intercalate rows ++ [drawRule widths bottom]

def text (table : Table) : String := "\n".intercalate (table.draw.map String.ofList)

end Table

end SchemaWire.CommandLine
