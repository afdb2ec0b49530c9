/-!
Descriptor layouts, and the ways in which bytes or records fail to fit one.
-/

namespace FrameIndex

/-- What kind of descriptor a byte string encodes. -/
inductive Layout where
  /-- Lengths, timestamp and link type only. -/
  | pcap
  /-- A header region and up to sixteen header records. -/
  | type2
  /-- Where an IP fragment belongs. -/
  | ipf
  deriving DecidableEq

namespace Layout

def name : Layout → String
  | .pcap => "pcap"
  | .type2 => "type2"
  | .ipf => "ipf"

/-- Whether a descriptor of this layout describes a whole packet. -/
def isPacket : Layout → Bool
  | .pcap => true
  | .type2 => true
  | .ipf => false

end Layout

/-- Why a descriptor, or a record for one, is refused. -/
inductive LayoutError where
  | bufferTooShort (layout : Layout) (needed available : Nat)
  | tooManyRecords (count max : Nat)
  | recordOutOfBounds (index stop captureLength : Nat)
  | captureLengthMismatch (captureLength frameLength : Nat)
  | orphanOptions
  | notPacketDescriptor (layout : Layout)
  deriving DecidableEq

def LayoutError.message : LayoutError → String
  | .bufferTooShort layout needed available =>
    s!"{layout.name}: buffer too short (need {needed} bytes, have {available})"
  | .tooManyRecords count max => s!"record count {count} exceeds maximum {max}"
  | .recordOutOfBounds index stop captureLength =>
    s!"record {index} ({stop} bytes) extends past capture length {captureLength}"
  | .captureLengthMismatch captureLength frameLength =>
    s!"capture length {captureLength} exceeds frame size {frameLength}"
  | .orphanOptions => "options record has no parent header"
  | .notPacketDescriptor layout => s!"{layout.name} is not a packet descriptor"

/-- Refuses a byte string shorter than a layout needs. -/
def Layout.requireLength (layout : Layout) (bs : List UInt8) (needed : Nat) :
    Except LayoutError Unit :=
  if bs.length < needed then .error (.bufferTooShort layout needed bs.length) else .ok ()

end FrameIndex
