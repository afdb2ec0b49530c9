import FrameIndex.Bytes

/-!
What can be wrong with a capture.
-/

namespace FrameIndex

/-- Why the bytes at hand are not the next item of a capture. -/
inductive ParseFault where
  /-- The capture ends in the middle of an item. -/
  | unexpectedEnd
  /-- The item is larger than the reader's buffer. -/
  | bufferTooSmall
  /-- The source failed. -/
  | readFailed
  /-- A number of bytes are missing. -/
  | incomplete (missing : Nat)
  /-- A section header without a byte-order mark. -/
  | unknownByteOrder
  /-- A stated length contradicts the layout, in front of the given bytes. -/
  | badLength (input : Bytes)
  deriving DecidableEq

def ParseFault.message : ParseFault → String
  | .unexpectedEnd => "Unexpected end of file"
  | .bufferTooSmall => "Buffer is too small"
  | .readFailed => "Read error"
  | .incomplete missing => s!"Incomplete read: {missing}"
  | .unknownByteOrder => "Header not recognized as PCAP or PCAPNG"
  | .badLength input =>
    "Internal parser error Verify, input [" ++
      ", ".intercalate (input.map fun b => toString b.toNat) ++ "]"

/-- What makes a capture invalid. -/
inductive FormatFault where
  | tooShort
  | unknownMagic (magic : Bytes)
  | classicHeader (fault : ParseFault)
  | sectionHeader (fault : ParseFault)
  | parse (fault : ParseFault)
  | refill (fault : ParseFault)
  | unsupportedResolution (resolution interface : Nat)
  deriving DecidableEq

def FormatFault.message : FormatFault → String
  | .tooShort => "File too short to read magic number"
  | .unknownMagic magic =>
    "Unknown magic number: [" ++ ", ".intercalate (magic.map fun b => Bytes.hex [b]) ++ "]"
  | .classicHeader fault => s!"Failed to parse PCAP header: {fault.message}"
  | .sectionHeader fault => s!"Failed to parse PCAPNG header: {fault.message}"
  | .parse fault => s!"Parse error: {fault.message}"
  | .refill fault => s!"Refill error: {fault.message}"
  | .unsupportedResolution resolution interface =>
    "Unsupported if_tsresol 0x" ++ Bytes.hex [UInt8.ofNat resolution] ++
      s!" on interface {interface}"

inductive CaptureFailure where
  | fileNotFound (path : String)
  | invalidFormat (fault : FormatFault)
  | source (text : String)
  deriving DecidableEq

namespace CaptureFailure

def cause : CaptureFailure → String
  | .fileNotFound path => s!"File not found: {path}"
  | .invalidFormat fault => s!"Invalid capture format: {fault.message}"
  | .source text => text

def message (e : CaptureFailure) : String :=
  match e with
  | .source text => s!"I/O error: {text}"
  | _ => s!"Capture error: {e.cause}"

end CaptureFailure

end FrameIndex
