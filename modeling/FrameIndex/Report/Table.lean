import FrameIndex.Report.Row
import FrameIndex.Report.Width

/-!
Rows as a table with borders of plus, minus, bar and equals signs. Every column is as wide as its
widest line, and cells are left aligned with a blank on either side.
-/

namespace FrameIndex

/-- A table of texts: the names of its columns, and its rows. -/
structure TextTable where
  header : List String
  rows : List (List String)
  deriving DecidableEq

namespace TextTable

/-- The lines of a cell. There is always at least one. -/
def cellLines (cell : String) : List String := cell.splitOn "\n"

/-- The columns of a terminal that a cell takes. -/
def cellWidth (cell : String) : Nat := ((cellLines cell).map Width.ofText).foldl max 0

def widths (t : TextTable) : List Nat :=
  t.rows.foldl (fun widths row => List.zipWith (fun w cell => max w (cellWidth cell)) widths row)
    (t.header.map cellWidth)

/-- A border: a line under each column, joined between columns and closed at both ends. -/
def border (ends joint : String) (line : Char) (widths : List Nat) : String :=
  let lines := widths.map fun w => String.ofList (List.replicate (w + 2) line)
  ends ++ joint.intercalate lines ++ ends

/-- A line of a cell, filled up to the width of its column. -/
def fill (line : String) (width : Nat) : String :=
  line ++ String.ofList (List.replicate (width - Width.ofText line) ' ')

/-- The lines of a row, as many as its tallest cell has. -/
def rowLines (widths : List Nat) (row : List String) : List String :=
  let cells := row.map cellLines
  let height := (cells.map List.length).foldl max 0
  (List.range height).map fun i =>
    let line := List.zipWith (fun cell w => fill ((cell[i]?).getD "") w) cells widths
    "| " ++ " | ".intercalate line ++ " |"

/-- The rows of the table with borders between them. -/
def bodyLines (widths : List Nat) : List (List String) → List String
  | [] => []
  | [row] => rowLines widths row
  | row :: rest => rowLines widths row ++ border "|" "+" '-' widths :: bodyLines widths rest

def lines (t : TextTable) : List String :=
  let widths := t.widths
  let edge := border "+" "+" '-' widths
  edge :: rowLines widths t.header ++ border "+" "=" '=' widths :: bodyLines widths t.rows ++ [edge]

def render (t : TextTable) : String := "\n".intercalate t.lines ++ "\n"

end TextTable

namespace NamedHeader

def cell (h : NamedHeader) : String := s!"{h.name}@{h.offset}+{h.length}"

end NamedHeader

namespace HeaderMatch

def cell (s : HeaderMatch) : String := s!"[{s.depth}] {s.offset}+{s.length} {s.preview}"

end HeaderMatch

namespace FragmentNote

def cell (f : FragmentNote) : String :=
  " [frag id=0x" ++ String.ofList (Nat.toDigits 16 f.identification) ++ s!" off={f.offset}" ++
    (if f.more then " +" else "") ++ "]"

end FragmentNote

namespace ReportRow

/-- The cells of a row, without that of the selected headers. -/
def cells (r : ReportRow) : List String := [
  toString r.frame,
  r.timestamp.getD "",
  toString r.captureLength,
  toString r.wireLength,
  " ".intercalate (r.headers.map NamedHeader.cell) ++ ((r.fragment.map FragmentNote.cell).getD ""),
  (r.payload.map fun p => s!"{p.offset}+{p.length}").getD ""]

/-- The cell of the selected headers, one a line. -/
def selectedCell (r : ReportRow) : String :=
  "\n".intercalate (r.selected.map HeaderMatch.cell)

/-- The table of some rows. Selected headers have a column only if there are any. -/
def table (rows : List ReportRow) : TextTable :=
  let names := ["frame", "time", "caplen", "wirelen", "headers", "payload"]
  if rows.any fun r => !r.selected.isEmpty then
    { header := names ++ ["selected"], rows := rows.map fun r => r.cells ++ [r.selectedCell] }
  else { header := names, rows := rows.map cells }

end ReportRow

end FrameIndex
