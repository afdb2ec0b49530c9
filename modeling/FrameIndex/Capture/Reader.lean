import FrameIndex.Capture.Block
import FrameIndex.Capture.Classic

/-!
Reading the frames of a capture, in either format, one at a time.

A reader answers with the next frame, with the end of the capture, or with an error, which leaves
it where it was unless the error is about a frame that was read in full. A frame makes what is left
to read smaller (`size_next_lt`), so that a capture has an end (`frames`).
-/

namespace FrameIndex

structure ClassicReader where
  feed : Feed
  header : ClassicHeader
  /-- Whether the header has been taken off the feed. -/
  entered : Bool := false
  count : Nat := 0
  linkType : Nat := Frame.ethernetLink

namespace ClassicReader

/-- Takes the header off the feed, once. -/
def enter (r : ClassicReader) : ClassicReader :=
  if r.entered then r
  else
    { r with
      feed := { r.feed with buffer := r.feed.buffer.drop ClassicHeader.length }
      entered := true
      linkType := r.header.linkType }

/-- The next frame. -/
def next (r : ClassicReader) : ClassicReader × Except CaptureFailure (Option Frame) :=
  let r := r.enter
  match r.feed.next (ClassicRecord.read r.header.order) with
  | (feed, .error fault) => ({ r with feed }, .error (.invalidFormat fault.toFormatFault))
  | (feed, .ok none) => ({ r with feed }, .ok none)
  | (feed, .ok (some record)) =>
    ({ r with feed, count := r.count + 1 }, .ok (some (record.toFrame r.header (r.count + 1))))

theorem size_enter_le (r : ClassicReader) : r.enter.feed.size ≤ r.feed.size := by
  unfold enter
  split
  · exact Nat.le_refl _
  · simp only [Feed.size, Feed.backlog, List.length_drop]
    omega

theorem size_next_lt {r r' : ClassicReader} {frame : Frame}
    (h : r.next = (r', .ok (some frame))) : r'.feed.size < r.feed.size := by
  unfold next at h
  simp only at h
  split at h
  · simp at h
  · simp at h
  · rename_i hn
    simp only [Prod.mk.injEq] at h
    obtain ⟨rfl, -⟩ := h
    exact Nat.lt_of_lt_of_le (Feed.size_next_lt hn) r.size_enter_le

end ClassicReader

structure BlockReader where
  feed : Feed
  order : ByteOrder := .little
  /-- The interfaces of the current section, in the order in which they are numbered. -/
  interfaces : List CaptureInterface := []
  count : Nat := 0
  linkType : Nat := Frame.ethernetLink

namespace BlockReader

/-- The interface with a number. One that was never described has the link type last seen. -/
def interface (r : BlockReader) (number : Nat) : CaptureInterface :=
  r.interfaces[number]?.getD { linkType := r.linkType }

/-- The frame of a packet that names its interface, unless the clock of that interface is not
supported. -/
def enhancedFrame (r : BlockReader) (p : EnhancedPacket) : Except CaptureFailure Frame :=
  let interface := r.interface p.interface
  match Ticks.toMicros? p.ticks interface.resolution with
  | none =>
    .error (.invalidFormat (.unsupportedResolution interface.resolution p.interface))
  | some micros =>
    .ok {
      number := r.count
      timestamp := Ticks.shifted micros interface.offset
      captured := p.captured
      onWire := p.onWire
      linkType := interface.linkType
      data := p.data }

/-- The frame of a packet that names no interface. It has no time. -/
def simpleFrame (r : BlockReader) (onWire : Nat) (data : Bytes) : Frame where
  number := r.count
  timestamp := 0
  captured := data.length
  onWire
  linkType := r.linkType
  data

/-- What a block changes, and its frame if it holds a packet. -/
def absorb (r : BlockReader) :
    CaptureBlock → BlockReader × Option (Except CaptureFailure Frame)
  | .section order => ({ r with order, interfaces := [] }, none)
  | .interface description =>
    ({ r with
        linkType := description.linkType
        interfaces := r.interfaces ++ [description] }, none)
  | .enhanced packet =>
    let r := { r with count := r.count + 1 }
    (r, some (r.enhancedFrame packet))
  | .simple onWire data =>
    let r := { r with count := r.count + 1 }
    (r, some (.ok (r.simpleFrame onWire data)))
  | .other => (r, none)

theorem feed_absorb (r : BlockReader) (block : CaptureBlock) :
    (r.absorb block).1.feed = r.feed := by
  cases block <;> rfl

/-- The next frame. -/
def next (r : BlockReader) : BlockReader × Except CaptureFailure (Option Frame) :=
  match _hn : r.feed.next (CaptureBlock.read r.order) with
  | (feed, .error fault) => ({ r with feed }, .error (.invalidFormat fault.toFormatFault))
  | (feed, .ok none) => ({ r with feed }, .ok none)
  | (feed, .ok (some block)) =>
    match _ha : { r with feed }.absorb block with
    | (after, some frame) => (after, frame.map some)
    | (after, none) => after.next
  termination_by r.feed.size
  decreasing_by
    have hf := feed_absorb { r with feed } block
    rw [_ha] at hf
    exact hf ▸ Feed.size_next_lt _hn

theorem size_next_lt {r r' : BlockReader} {frame : Frame}
    (h : r.next = (r', .ok (some frame))) : r'.feed.size < r.feed.size := by
  fun_induction next r with
  | case1 => simp at h
  | case2 => simp at h
  | case3 r feed block hn v result ha =>
    have hf := feed_absorb { r with feed } block
    rw [ha] at hf
    simp only [Prod.mk.injEq] at h
    obtain ⟨rfl, -⟩ := h
    exact hf ▸ Feed.size_next_lt hn
  | case4 r feed block hn v ha ih =>
    have hf := feed_absorb { r with feed } block
    rw [ha] at hf
    exact Nat.lt_trans (ih h) (hf ▸ Feed.size_next_lt hn)

end BlockReader

inductive Capture where
  | classic (reader : ClassicReader)
  | blocks (reader : BlockReader)

namespace Capture

def blockMagic : Bytes := [0x0a, 0x0d, 0x0d, 0x0a]

/-- Opens the capture in a source. The first piece read has to hold the whole of the capture's
first header. -/
def ofSource (source : ByteSource) : Except CaptureFailure Capture :=
  match Feed.start source with
  | .error text => .error (.source text)
  | .ok feed =>
    let magic := feed.buffer.take 4
    if magic.length < 4 then .error (.invalidFormat .tooShort)
    else if (ClassicHeader.ofMagic? magic).isSome then
      match ClassicHeader.read feed.buffer with
      | .error fault => .error (.invalidFormat (.classicHeader fault))
      | .ok header => .ok (.classic { feed, header })
    else if magic = blockMagic then
      match CaptureBlock.readSection feed.buffer with
      | .cutOff missing => .error (.invalidFormat (.sectionHeader (.incomplete missing)))
      | .faulty fault => .error (.invalidFormat (.sectionHeader fault))
      | .whole _ _ _ => .ok (.blocks { feed })
    else .error (.invalidFormat (.unknownMagic magic))

/-- The next frame; none at the end of the capture. -/
def next : Capture → Capture × Except CaptureFailure (Option Frame)
  | classic r => r.next.map classic id
  | blocks r => r.next.map blocks id

/-- The link type last seen in a header or an interface description. -/
def linkType : Capture → Nat
  | classic r => r.linkType
  | blocks r => r.linkType

def count : Capture → Nat
  | classic r => r.count
  | blocks r => r.count

def size : Capture → Nat
  | classic r => r.feed.size
  | blocks r => r.feed.size

theorem size_next_lt {r r' : Capture} {frame : Frame}
    (h : r.next = (r', .ok (some frame))) : r'.size < r.size := by
  cases r with
  | classic r =>
    simp only [next, Prod.map, id, Prod.mk.injEq] at h
    obtain ⟨rfl, h⟩ := h
    exact ClassicReader.size_next_lt (Prod.ext rfl h)
  | blocks r =>
    simp only [next, Prod.map, id, Prod.mk.injEq] at h
    obtain ⟨rfl, h⟩ := h
    exact BlockReader.size_next_lt (Prod.ext rfl h)

/-- The frames up to the end of the capture or the first error, and that error. -/
def frames (r : Capture) : List Frame × Option CaptureFailure :=
  match _h : r.next with
  | (_, .ok none) => ([], none)
  | (_, .error e) => ([], some e)
  | (r, .ok (some frame)) => r.frames.map (frame :: ·) id
  termination_by r.size
  decreasing_by exact size_next_lt _h

end Capture

end FrameIndex
