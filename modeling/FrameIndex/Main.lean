import FrameIndex.CommandLine

/-!
The command: reads the capture file that the arguments name, and writes what the run leaves behind.
-/

namespace FrameIndex

/-- The source of what a path names. A file that cannot be opened counts as not found. -/
def openFile (path : String) : IO (Except CaptureFailure ByteSource) := do
  let opened ← (IO.FS.Handle.mk path .read).toBaseIO
  match opened with
  | .error _ => return .error (.fileNotFound path)
  | .ok handle =>
    match ← handle.readBinToEnd.toBaseIO with
    | .error (.inappropriateType ..) => return .ok InspectionJob.directorySource
    | .error e => return .error (.source (toString e))
    | .ok bytes => return .ok (InspectionJob.fileSource bytes.toList)

def carryOut : Errand → IO RunResult
  | .finished result => return result
  | .inspect job => return job.run (← openFile job.path)

end FrameIndex

/-- The entry point of the command. -/
def main (arguments : List String) : IO UInt32 := do
  let result ← FrameIndex.carryOut (FrameIndex.Errand.ofList arguments)
  (← IO.getStdout).putStr result.stdout
  (← IO.getStderr).putStr result.stderr
  return UInt32.ofNat result.code
