import FrameIndex.IndexedFrame
import FrameIndex.Report.Row

/-!
Inspecting frames one after another with a single packet.

A frame is dissected and bound, and reported as a row. With a filter, only frames that have the
header are reported, along with every occurrence of it.
-/

namespace FrameIndex

/-- A packet that is bound to one frame after another, a filter, and how many frames were seen and
reported. -/
structure Inspection where
  layout : Layout
  filter : Option HeaderId
  packet : Packet RawView
  frames : Nat := 0
  shown : Nat := 0

namespace Inspection

/-- The deepest nesting at which a header is looked for. -/
def maxDepth : Nat := 16

/-- The most bytes of a header that are previewed. -/
def previewLength : Nat := 16

/-- The inspection for a layout, if it can describe a packet. -/
def create (layout : Layout) (filter : Option HeaderId) : Except PacketError Inspection :=
  (Packet.create { layout } ViewFactory.raw).map fun packet => { layout, filter, packet }

/-- The entry for a view that is bound at a depth. -/
def selectedAt? (v : RawView) (depth : Nat) : Option HeaderMatch :=
  match v.placement, v.bytes with
  | some l, some bytes =>
    some {
      depth
      offset := l.offset
      length := l.length
      preview := Bytes.hex (bytes.take previewLength) }
  | _, _ => none

/-- The occurrences of a header from a depth on, at most `count` of them. Each is bound through the
packet's cached view, which is returned before the next. -/
def select (id : HeaderId) : Nat → Nat → Packet RawView →
    Packet RawView × Except PacketError (List HeaderMatch)
  | 0, _, p => (p, .ok [])
  | count + 1, depth, p =>
    match p.cachedHeader id depth with
    | (p, .error e) => (p, .error e)
    | (p, .ok none) => (p, .ok [])
    | (p, .ok (some v)) =>
      let (p, rest) := select id count (depth + 1) (p.release (.ofHeader id))
      (p, rest.map ((selectedAt? v depth).toList ++ ·))

/-- The fragment data in a packet's chain. -/
def fragmentNote? (p : Packet RawView) : Option FragmentNote :=
  (p.chained? .ipf).map fun d =>
    let info := FragmentPlace.decode d.bytes
    { identification := info.identification.toNat
      offset := info.offset.toNat
      more := info.hasFlag FragmentPlace.moreBit }

/-- The row of the frame that a packet is bound to. -/
def row (p : Packet RawView) (number : Nat) (selected : List HeaderMatch) : ReportRow :=
  let ix := p.index
  { frame := number
    timestamp := p.time?
    layout := ix.layout
    captureLength := ix.captureLength
    wireLength := ix.wireLength
    headers := ix.records.map fun r => { name := r.id.name, offset := r.start, length := r.size }
    payload := (p.locate? .payload 0).map fun l => { offset := l.offset, length := l.length }
    fragment := fragmentNote? p
    selected }

/-- Inspects a frame: its row, or none if the filter passes it over. -/
def inspect (i : Inspection) (frame : Frame) :
    Inspection × Except PacketError (Option ReportRow) :=
  let i := { i with frames := i.frames + 1 }
  match (IndexedFrame.ofFrame i.layout frame).bindPacket i.packet with
  | (packet, .error e) => ({ i with packet }, .error e)
  | (packet, .ok ()) =>
    match i.filter with
    | none => ({ i with packet, shown := i.shown + 1 }, .ok (some (row packet frame.number [])))
    | some id =>
      match select id maxDepth 0 packet with
      | (packet, .error e) => ({ i with packet }, .error e)
      | (packet, .ok []) => ({ i with packet }, .ok none)
      | (packet, .ok selected) =>
        ({ i with packet, shown := i.shown + 1 }, .ok (some (row packet frame.number selected)))

end Inspection

end FrameIndex
