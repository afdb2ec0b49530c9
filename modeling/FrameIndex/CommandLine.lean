import FrameIndex.Arguments
import FrameIndex.Capture.Reader
import FrameIndex.Inspection

/-!
What the command does: it lists the known headers, or inspects the frames of a capture.

A run is a function of its arguments and of what the capture file gives, to an exit code and the
texts on both output streams. Rows in JSON are on the output stream even if a later frame cannot be
read; a table is only there if every frame could be.
-/

namespace FrameIndex

/-- What a run leaves behind. -/
structure RunResult where
  code : Nat := 0
  stdout : String := ""
  stderr : String := ""
  deriving DecidableEq

namespace RunResult

/-- A cause of a failure, indented and numbered if there are several. -/
def causeLine (number : Option Nat) (cause : String) : String :=
  match number with
  | none => "    " ++ cause.replace "\n" "\n    "
  | some n =>
    let digits := toString n
    String.ofList (List.replicate (5 - digits.length) ' ') ++ digits ++ ": " ++
      cause.replace "\n" "\n       "

/-- What failed and why, the outermost cause first. -/
def failureText (context : String) (causes : List String) : String :=
  let lines :=
    match causes with
    | [] => []
    | [cause] => ["", "Caused by:", causeLine none cause]
    | causes => "" :: "Caused by:" :: causes.mapIdx fun i cause => causeLine (some i) cause
  "\n".intercalate (("Error: " ++ context) :: lines) ++ "\n"

/-- The result of a run that failed after it had written a text. -/
def failure (context : String) (causes : List String) (stdout : String) : RunResult where
  code := 1
  stdout
  stderr := failureText context causes

end RunResult

/-- The causes that are told of a refusal: its own text, and that of what it wraps. -/
def PacketError.causes (e : PacketError) : List String :=
  e.message ::
    match e with
    | .headerNotFound _ _ => []
    | .binding _ _ fault => [fault.message]
    | .descriptor refusal => [refusal.message]

/-- The causes that are told of a capture error: its own text, and that of what it wraps. -/
def CaptureFailure.causes (e : CaptureFailure) : List String := [e.message, e.cause]

/-- The inspection of a capture file. -/
structure InspectionJob where
  path : String
  layout : Layout := .type2
  filter : Option HeaderId := none
  format : ReportFormat := .table
  /-- The most frames that are read. -/
  limit : Option Nat := none
  deriving DecidableEq

namespace InspectionJob

/-- The most bytes of a file that are read at once. -/
def filePiece : Nat := 65536

def fileSource (bs : Bytes) : ByteSource := .ofBytes bs filePiece none

/-- The source of a directory, which can be opened but not read. -/
def directorySource : ByteSource := .ofBytes [] filePiece (some (0, "Is a directory (os error 21)"))

/-- The frames that are read, and the error that ends them. One behind the limit is never met. -/
def within (limit : Option Nat) (read : List Frame × Option CaptureFailure) :
    List Frame × Option CaptureFailure :=
  match limit with
  | none => read
  | some n => (read.1.take n, if read.1.length < n then read.2 else none)

/-- Inspects frames and writes their rows, up to the first frame that is refused. -/
def writeRows : List Frame → Inspection → ReportWriter →
    ReportWriter × Option (Nat × PacketError)
  | [], _, w => (w, none)
  | frame :: rest, i, w =>
    match i.inspect frame with
    | (_, .error e) => (w, some (frame.number, e))
    | (i, .ok none) => writeRows rest i w
    | (i, .ok (some row)) => writeRows rest i (w.push row)

/-- Runs the inspection on what opening the file gives. -/
def run (job : InspectionJob) (source : Except CaptureFailure ByteSource) : RunResult :=
  match source.bind Capture.ofSource with
  | .error e => .failure s!"Failed to open capture file: {job.path}" e.causes ""
  | .ok reader =>
    match Inspection.create job.layout job.filter with
    | .error e => .failure e.message e.causes.tail ""
    | .ok inspection =>
      let (frames, fault) := within job.limit reader.frames
      match writeRows frames inspection { format := job.format }, fault with
      | (w, some (number, e)), _ =>
        .failure s!"Failed to inspect frame {number}" e.causes w.written
      | (w, none), some e => .failure "Failed to read frame" e.causes w.written
      | (w, none), none => { stdout := w.finish }

end InspectionJob

/-! The list of the known headers: their names, packs and protocols in columns. -/

namespace KnownListing

/-- A text filled up with blanks behind it. -/
def left (width : Nat) (text : String) : String :=
  text ++ String.ofList (List.replicate (width - text.length) ' ')

/-- A number filled up with blanks in front of it. -/
def right (width n : Nat) : String :=
  let digits := toString n
  String.ofList (List.replicate (width - digits.length) ' ') ++ digits

/-- The line of an identifier. -/
def line (id : HeaderId) : String :=
  "  " ++ left 24 id.name ++ " pack " ++ right 2 id.pack ++ "  protocol " ++
    right 2 id.protocol ++ "\n"

def text : String :=
  "Known headers:\n" ++ String.ofList (List.replicate 50 '-') ++ "\n" ++
    String.join (HeaderId.known.map fun entry => line entry.1)

end KnownListing

/-- What arguments ask for: a result that is there already, or an inspection. -/
inductive Errand where
  | finished (result : RunResult)
  | inspect (job : InspectionJob)
  deriving DecidableEq

namespace Errand

def versionText : String := "netdesc 0.1.0\n"

def usageText : String := "Usage: netdesc [OPTIONS] [FILE]\n"

/-- The result of a run that the arguments stop. -/
def ofStop : UsageStop → RunResult
  | .helpAsked => { stdout := usageText }
  | .versionAsked => { stdout := versionText }
  | _ => { code := 2, stderr := usageText }

/-- What accepted arguments ask for. The list of headers is given even if there is a file. -/
def ofArguments (a : Arguments) : Errand :=
  if a.listHeaders then finished { stdout := KnownListing.text }
  else
    match a.file with
    | none => finished (.failure "Capture file required. Use --help for usage." [] "")
    | some path =>
      inspect {
        path
        layout := a.layout
        filter := a.header
        format := a.reportFormat
        limit := a.limit }

/-- What a command line asks for. -/
def ofList (arguments : List String) : Errand :=
  match Arguments.ofList arguments with
  | .error stop => finished (ofStop stop)
  | .ok a => ofArguments a

end Errand

end FrameIndex
