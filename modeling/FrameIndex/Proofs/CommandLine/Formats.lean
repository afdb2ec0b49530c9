import FrameIndex.CommandLine
import FrameIndex.Proofs.Inspection.History

/-!
# Runs in both formats

Whatever the format, a run finds the same: the rows of the frames that are read, and what it fails
with (`InspectionJob.findings`). The format decides how much of that is on the output stream. At the
end of a run that succeeds all rows are there. A run that fails leaves what the writer had put there
by then (`ReportFormat.early`), which is every row in JSON and nothing of a table.
-/

namespace FrameIndex

/-! ## What is written early -/

namespace ReportFormat

variable {rows : List ReportRow}

/-- What of a report is on the output stream before it is finished. -/
def early (format : ReportFormat) (rows : List ReportRow) : String :=
  match format with
  | .table => ""
  | .json => ReportFormat.json.write rows

/-- A text is a report of some rows. Where there are none, there may be no text. -/
def Reports (format : ReportFormat) (text : String) (rows : List ReportRow) : Prop :=
  text = format.write rows ∨ text = "" ∧ rows = []

theorem early_cons (format : ReportFormat) (row : ReportRow) (rows : List ReportRow) :
    format.early (row :: rows) = format.early [row] ++ format.early rows := by
  cases format with
  | table => rfl
  | json => simp [early, write]

theorem write_table_ne_empty (rows : List ReportRow) : ReportFormat.table.write rows ≠ "" := by
  simp [write, TextTable.render]

theorem write_json_eq_empty_iff : ReportFormat.json.write rows = "" ↔ rows = [] := by
  cases rows with
  | nil => simp [write]
  | cons row rows => simp [write, ReportRow.jsonLine]

theorem reports_empty_iff {format : ReportFormat} : format.Reports "" rows ↔ rows = [] := by
  refine ⟨?_, fun h => .inr ⟨rfl, h⟩⟩
  rintro (hwrite | ⟨-, hrows⟩)
  · cases format with
    | table => exact absurd hwrite.symm (write_table_ne_empty rows)
    | json => exact write_json_eq_empty_iff.1 hwrite.symm
  · exact hrows

end ReportFormat

namespace ReportWriter

theorem format_push (w : ReportWriter) (row : ReportRow) : (w.push row).format = w.format := by
  obtain ⟨format, written, waiting⟩ := w
  cases format <;> rfl

theorem written_push (w : ReportWriter) (row : ReportRow) :
    (w.push row).written = w.written ++ w.format.early [row] := by
  obtain ⟨format, written, waiting⟩ := w
  cases format with
  | table => simp [push, ReportFormat.early]
  | json => simp [push, ReportFormat.early, ReportFormat.write]

theorem written_foldl_push (w : ReportWriter) (rows : List ReportRow) :
    (rows.foldl push w).written = w.written ++ w.format.early rows := by
  induction rows generalizing w with
  | nil =>
    obtain ⟨format, written, waiting⟩ := w
    cases format <;> simp [ReportFormat.early, ReportFormat.write]
  | cons row rows ih =>
    rw [List.foldl_cons, ih, format_push, written_push, w.format.early_cons row rows,
      String.append_assoc]

end ReportWriter

/-! ## What a run finds -/

/-- What is found in a run, apart from how it is written: the rows of the frames that are read, and
the context and the causes of what the run fails with. -/
structure RunFindings where
  rows : List ReportRow := []
  failure : Option (String × List String) := none
  deriving DecidableEq

namespace RunFindings

def result (format : ReportFormat) (f : RunFindings) : RunResult :=
  match f.failure with
  | none => { stdout := format.write f.rows }
  | some (context, causes) => .failure context causes (format.early f.rows)

variable (f : RunFindings)

/-- The format decides neither the exit code nor what is told of a failure. -/
theorem ends_alike (format format' : ReportFormat) :
    (f.result format).code = (f.result format').code ∧
      (f.result format).stderr = (f.result format').stderr := by
  obtain ⟨rows, failure⟩ := f
  cases failure <;> exact ⟨rfl, rfl⟩

theorem stdout_json : (f.result .json).stdout = ReportFormat.json.write f.rows := by
  obtain ⟨rows, failure⟩ := f
  cases failure <;> rfl

theorem stdout_table :
    (f.result .table).stdout =
      if (f.result .json).code = 0 then ReportFormat.table.write f.rows else "" := by
  obtain ⟨rows, failure⟩ := f
  cases failure <;> rfl

theorem shown_alike_iff :
    (∃ rows, ReportFormat.table.Reports (f.result .table).stdout rows ∧
      ReportFormat.json.Reports (f.result .json).stdout rows) ↔
      (f.result .json).code = 0 ∨ f.rows = [] := by
  rw [stdout_table, stdout_json]
  by_cases hcode : (f.result .json).code = 0
  · rw [if_pos hcode]
    exact ⟨fun _ => .inl hcode, fun _ => ⟨f.rows, .inl rfl, .inl rfl⟩⟩
  · rw [if_neg hcode, or_iff_right hcode]
    constructor
    · rintro ⟨rows, htable, hjson⟩
      obtain rfl := ReportFormat.reports_empty_iff.1 htable
      rcases hjson with hwrite | ⟨hempty, -⟩
      · exact ReportFormat.write_json_eq_empty_iff.1 hwrite
      · exact ReportFormat.write_json_eq_empty_iff.1 hempty
    · intro hrows
      rw [hrows]
      exact ⟨[], .inr ⟨rfl, rfl⟩, .inl rfl⟩

end RunFindings

namespace InspectionJob

/-- What an inspection finds in what opening the file gives. -/
def findings (job : InspectionJob) (source : Except CaptureFailure ByteSource) : RunFindings :=
  match source.bind Capture.ofSource with
  | .error e => { failure := some (s!"Failed to open capture file: {job.path}", e.causes) }
  | .ok reader =>
    match Inspection.create job.layout job.filter with
    | .error e => { failure := some (e.message, e.causes.tail) }
    | .ok _ =>
      let (frames, fault) := within job.limit reader.frames
      { rows := frames.filterMap (Inspection.report job.layout job.filter)
        failure := fault.map fun e => ("Failed to read frame", e.causes) }

theorem writeRows_eq {i : Inspection} (h : i.AtRest) (frames : List Frame) (w : ReportWriter) :
    writeRows frames i w =
      ((frames.filterMap (Inspection.report i.layout i.filter)).foldl ReportWriter.push w,
        none) := by
  induction frames generalizing i w with
  | nil => rfl
  | cons frame rest ih =>
    obtain ⟨packet, hinspect, hnext⟩ := h.inspect_eq frame
    rw [writeRows, hinspect]
    cases hreport : Inspection.report i.layout i.filter frame with
    | none =>
      rw [List.filterMap_cons_none hreport]
      rw [hreport] at hnext
      exact ih hnext w
    | some row =>
      rw [List.filterMap_cons_some hreport, List.foldl_cons]
      rw [hreport] at hnext
      exact ih hnext (w.push row)

theorem run_eq (job : InspectionJob) (source : Except CaptureFailure ByteSource) :
    job.run source = (job.findings source).result job.format := by
  unfold run findings
  cases source.bind Capture.ofSource with
  | error e =>
    cases job.format <;> rfl
  | ok reader =>
    cases hcreate : Inspection.create job.layout job.filter with
    | error e => cases job.format <;> rfl
    | ok inspection =>
      obtain ⟨hrest, hlayout, hfilter, -, -⟩ := Inspection.atRest_of_create hcreate
      simp only [writeRows_eq hrest, hlayout, hfilter]
      cases (within job.limit reader.frames).2 with
      | none => exact congrArg (RunResult.mk 0 · "") (ReportWriter.finish_push _ _)
      | some e =>
        simp only [ReportWriter.written_foldl_push, String.empty_append]
        rfl

/-! ## Both formats -/

/-- **A run that fails shows no rows in a table.** Whatever the format, a run ends in the same way.
All rows that are found are written in JSON. In a table they are written if the run succeeds, and
nothing is if it fails. So the formats show the same rows exactly if the run succeeds, or finds
none. -/
theorem formats_agree_iff (job : InspectionJob) (source : Except CaptureFailure ByteSource) :
    let table := run { job with format := .table } source
    let json := run { job with format := .json } source
    let rows := (job.findings source).rows
    table.code = json.code ∧ table.stderr = json.stderr ∧
    json.stdout = ReportFormat.json.write rows ∧
    table.stdout = (if json.code = 0 then ReportFormat.table.write rows else "") ∧
    ((∃ shown, ReportFormat.table.Reports table.stdout shown ∧
      ReportFormat.json.Reports json.stdout shown) ↔ json.code = 0 ∨ rows = []) := by
  intro table json rows
  have htable : table = (job.findings source).result .table := run_eq _ _
  have hjson : json = (job.findings source).result .json := run_eq _ _
  obtain ⟨hcode, hstderr⟩ := (job.findings source).ends_alike .table .json
  rw [htable, hjson]
  exact ⟨hcode, hstderr, RunFindings.stdout_json _, RunFindings.stdout_table _,
    RunFindings.shown_alike_iff _⟩

/-- A classic capture of one packet, and the first bytes of another record. -/
def cutBehindPacket : Bytes :=
  [0xd4, 0xc3, 0xb2, 0xa1, 2, 0, 4, 0, 0, 0, 0, 0, 0, 0, 0, 0, 0xff, 0xff, 0, 0, 1, 0, 0, 0] ++
  [1, 0, 0, 0, 3, 0, 0, 0, 14, 0, 0, 0, 14, 0, 0, 0] ++
  [0xff, 0xff, 0xff, 0xff, 0xff, 0xff, 0, 0x11, 0x22, 0x33, 0x44, 0x55, 0x88, 0x47] ++
  [1, 2, 3]

def cutRow : ReportRow where
  frame := 1
  timestamp := some "1970-01-01T00:00:01.000003+00:00"
  captureLength := 14
  wireLength := 14
  headers := [⟨"ethernet", 0, 14⟩]
  payload := some ⟨14, 0⟩

/-- The packet is shown in JSON and not in a table. -/
theorem cut_capture_shown_as_json :
    let source := .ok (fileSource cutBehindPacket)
    let table := run { path := "cut.pcap", format := .table } source
    let json := run { path := "cut.pcap", format := .json } source
    json.stdout = ReportFormat.json.write [cutRow] ∧
    table.stdout = "" ∧
    ¬ ∃ shown, ReportFormat.table.Reports table.stdout shown ∧
      ReportFormat.json.Reports json.stdout shown := by
  intro source table json
  have hfound : findings { path := "cut.pcap" } source = {
      rows := [cutRow]
      failure := some ("Failed to read frame",
        (CaptureFailure.invalidFormat (.parse .unexpectedEnd)).causes) } := by
    decide +kernel
  have htable : table = (findings { path := "cut.pcap" } source).result .table := run_eq _ _
  have hjson : json = (findings { path := "cut.pcap" } source).result .json := run_eq _ _
  rw [htable, hjson, RunFindings.shown_alike_iff, hfound]
  refine ⟨rfl, rfl, ?_⟩
  rintro (hcode | hrows)
  · cases hcode
  · cases hrows

end InspectionJob

end FrameIndex
