import FrameIndex.Report.Json
import FrameIndex.Report.Table

/-!
Reports of inspected frames, as a table or as lines of JSON.

A report can be written at once or row by row. Lines of JSON go out with each row; a table can only
be written at the end, when the widths of its columns are known. Both ways write the same
(`finish_push`).
-/

namespace FrameIndex

/-- How rows are written. -/
inductive ReportFormat where
  | table
  | json
  deriving DecidableEq

namespace ReportFormat

def name : ReportFormat → String
  | .table => "table"
  | .json => "json"

/-- The text of a report. -/
def write (format : ReportFormat) (rows : List ReportRow) : String :=
  match format with
  | .table => (ReportRow.table rows).render
  | .json => String.join (rows.map ReportRow.jsonLine)

end ReportFormat

/-- A report that is written row by row: what has been written, and the rows that wait. -/
structure ReportWriter where
  format : ReportFormat
  written : String := ""
  waiting : List ReportRow := []

namespace ReportWriter

def push (w : ReportWriter) (row : ReportRow) : ReportWriter :=
  match w.format with
  | .table => { w with waiting := w.waiting ++ [row] }
  | .json => { w with written := w.written ++ row.jsonLine }

/-- The whole text of the report. -/
def finish (w : ReportWriter) : String :=
  match w.format with
  | .table => w.written ++ (ReportRow.table w.waiting).render
  | .json => w.written

/-- Row by row or at once, the report is the same. -/
theorem finish_push (format : ReportFormat) (rows : List ReportRow) :
    (rows.foldl push { format }).finish = format.write rows := by
  cases format with
  | table =>
    have h (rows : List ReportRow) (w : ReportWriter) (hf : w.format = .table) :
        rows.foldl push w = { w with waiting := w.waiting ++ rows } := by
      induction rows generalizing w with
      | nil => simp
      | cons row rows ih =>
        rw [List.foldl_cons, ih _ (by simp [push, hf])]
        simp [push, hf]
    rw [h rows _ rfl]
    simp [finish, ReportFormat.write]
  | json =>
    have h (rows : List ReportRow) (w : ReportWriter) (hf : w.format = .json) :
        rows.foldl push w =
          { w with written := w.written ++ String.join (rows.map ReportRow.jsonLine) } := by
      induction rows generalizing w with
      | nil => simp
      | cons row rows ih =>
        rw [List.foldl_cons, ih _ (by simp [push, hf])]
        simp [push, hf, String.append_assoc]
    rw [h rows _ rfl]
    simp [finish, ReportFormat.write]

end ReportWriter

end FrameIndex
