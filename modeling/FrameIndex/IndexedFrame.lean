import FrameIndex.Frame
import FrameIndex.Traversal
import FrameIndex.Packet

/-!
Dissecting a frame: making the descriptor that says where its headers are.

Dissection never fails. Where a frame stops making sense, or has more headers than a descriptor
holds, the rest is payload. Frames are cut to the 65535 bytes that a descriptor can speak of.
-/

namespace FrameIndex

/-- A frame, its descriptor, and the fragment data if the frame carries an IP fragment. -/
structure IndexedFrame where
  data : Bytes
  layout : Layout
  descriptor : Bytes
  fragment : Option Bytes
  deriving DecidableEq

namespace IndexedFrame

/-- The most bytes of a frame that a descriptor can speak of. -/
def maxLength : Nat := 65535

/-- The bytes of a frame that are described. -/
def clip (frame : Frame) : Bytes := frame.data.take maxLength

/-- The timestamp in a descriptor; times before the epoch count as the epoch. -/
def timestamp (frame : Frame) : UInt64 := UInt64.ofNat frame.timestamp.toNat

/-- What the traversal finds in a frame: headers behind Ethernet only. -/
def traversal (frame : Frame) : Traversal :=
  let start := Traversal.start (some Type2.maxRecords) (clip frame)
  if frame.linkType = Frame.ethernetLink then start.run (clip frame) ⟨.ethernet, 0⟩
  else start

/-- The dissection into a descriptor with header records. -/
def indexed (frame : Frame) : IndexedFrame :=
  let t := traversal frame
  { data := clip frame
    layout := .type2
    descriptor := { t.draft with
      wireLength := some (clampWord frame.onWire)
      timestamp := timestamp frame }.encode
    fragment := t.fragment.map FragmentPlace.encode }

/-- The dissection into lengths, timestamp and link type. -/
def summarized (frame : Frame) : IndexedFrame where
  data := clip frame
  layout := .pcap
  descriptor := CaptureSummary.encode {
    captureLength := clampWord (clip frame).length
    wireLength := some (clampWord frame.onWire)
    timestamp := timestamp frame
    linkType := UInt16.ofNat frame.linkType }
  fragment := none

/-- Dissects a frame for a layout. Every layout but the plain one has header records. -/
def ofFrame (layout : Layout) (frame : Frame) : IndexedFrame :=
  if layout = .pcap then summarized frame else indexed frame

/-- Binds a packet to the frame, and chains the fragment data. -/
def bindPacket {V : Type} [Bindable V] (d : IndexedFrame) (p : Packet V) :
    Packet V × Except PacketError Unit :=
  match p.bind d.data d.descriptor with
  | (p, .error e) => (p, .error e)
  | (p, .ok ()) =>
    match d.fragment with
    | none => (p, .ok ())
    | some bs =>
      match p.attachEncoded .ipf bs with
      | .error e => (p, .error e)
      | .ok p => (p, .ok ())

end IndexedFrame

end FrameIndex
