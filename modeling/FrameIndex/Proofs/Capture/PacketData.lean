import FrameIndex.Proofs.Capture.Position

/-!
# Which bytes a frame has

Every frame that is read of a capture, however the source hands it out and whatever was read before,
is read of the packet whose turn it is. It has exactly the packet's bytes if the packet stands in a
record, or in a block where it needs no filler; otherwise it has the filler too
(`Capture.exact_frame_iff`).
-/

namespace FrameIndex

namespace Capture

/-- A capture that was opened in a source, after any number of frames was asked for. -/
inductive Reached (source : ByteSource) : Capture → Prop where
  | opened {c : Capture} (h : ofSource source = .ok c) : Reached source c
  | next {c : Capture} (h : Reached source c) : Reached source c.next.1

variable {c c' : Capture} {source : ByteSource} {frame : Frame}

theorem Reached.standsIn (h : Reached source c) : c.StandsIn source.bytes := by
  induction h with
  | opened h => exact standsIn_ofSource h
  | next h ih => exact (ih.next rfl).1

/-- **Which bytes a frame has.** Every frame is read of a stored packet. Unless that is a truncated
simple packet, the frame has its bytes and no others exactly if it stands in a record, or if the
number of its bytes is a multiple of four. -/
theorem exact_frame_iff (hreached : Reached source c) (h : c.next = (c', .ok (some frame))) :
    ∃ p : StoredPacket, p.TakenAs frame source.bytes c'.unread ∧
      (p.Untruncated → (p.Exact frame ↔ p.layout = .record ∨ 4 ∣ p.stated)) := by
  obtain ⟨p, htaken⟩ := (hreached.standsIn.next h).2 frame rfl
  exact ⟨p, htaken, fun huntruncated =>
    StoredPacket.exact_iff htaken.whole huntruncated htaken.read⟩

/-- A section header, an Ethernet interface, and an enhanced packet of five bytes, which three zero
bytes fill up. -/
def fiveBytes : Bytes :=
  [0x0a, 0x0d, 0x0d, 0x0a, 28, 0, 0, 0, 0x4d, 0x3c, 0x2b, 0x1a, 1, 0, 0, 0] ++
  List.replicate 8 0xff ++ [28, 0, 0, 0] ++
  [1, 0, 0, 0, 20, 0, 0, 0, 1, 0, 0, 0, 0, 0, 0, 0, 20, 0, 0, 0] ++
  [6, 0, 0, 0, 40, 0, 0, 0, 0, 0, 0, 0, 0, 0, 0, 0, 0, 0, 0, 0, 5, 0, 0, 0, 5, 0, 0, 0] ++
  [1, 2, 3, 4, 5, 0, 0, 0, 40, 0, 0, 0]

/-- The frame that is read of it. -/
def filledFrame : Frame where
  number := 1
  timestamp := 0
  captured := 5
  onWire := 5
  linkType := Frame.ethernetLink
  data := [1, 2, 3, 4, 5, 0, 0, 0]

def fiveBytesReader : Capture := .blocks { feed := ⟨{ pieces := [] }, [], fiveBytes, false⟩ }

theorem next_fiveBytes :
    ∃ c c', ofSource { pieces := [fiveBytes] } = .ok c ∧ c.next = (c', .ok (some filledFrame)) := by
  have hopened : ofSource { pieces := [fiveBytes] } = .ok fiveBytesReader := rfl
  have hframe : fiveBytesReader.next.2.toOption = some (some filledFrame) := by
    decide +kernel
  refine ⟨_, _, hopened, Prod.ext rfl ?_⟩
  cases hnext : fiveBytesReader.next.2 with
  | error e =>
    rw [hnext] at hframe
    cases hframe
  | ok frame =>
    rw [hnext] at hframe
    exact congrArg Except.ok (Option.some.inj hframe)

/-- The three bytes that fill the packet up are in its frame too. -/
theorem filler_in_frame :
    ∃ (c c' : Capture) (p : StoredPacket), ofSource { pieces := [fiveBytes] } = .ok c ∧
      c.next = (c', .ok (some filledFrame)) ∧ p.TakenAs filledFrame fiveBytes c'.unread ∧
      p.layout = .enhanced ∧ p.stated = 5 ∧ filledFrame.data.length = 8 ∧
      ¬ p.Exact filledFrame := by
  obtain ⟨c, c', hopened, hnext⟩ := next_fiveBytes
  obtain ⟨⟨layout, order, bytes⟩, htaken⟩ := ((standsIn_ofSource hopened).next hnext).2 _ rfl
  have hcaptured := htaken.read.captured_eq
  have hlength := htaken.read.length_data htaken.whole
  refine ⟨c, c', _, hopened, hnext, htaken, ?_⟩
  cases layout with
  | record =>
    -- a record would hold as many bytes as it states
    exact absurd (hcaptured.trans hlength.symm) (by decide)
  | simple => exact absurd (hcaptured.trans hlength.symm) (by decide)
  | enhanced =>
    exact ⟨rfl, hcaptured.symm, rfl, fun hexact =>
      absurd (hexact.captured_eq.trans hexact.length_eq.symm) (by decide)⟩

theorem exact_frame_iff_fiveBytes :
    ∃ c c', Reached { pieces := [fiveBytes] } c ∧ c.next = (c', .ok (some filledFrame)) ∧
      ∃ p : StoredPacket, p.TakenAs filledFrame fiveBytes c'.unread ∧
        (p.Untruncated → (p.Exact filledFrame ↔ p.layout = .record ∨ 4 ∣ p.stated)) := by
  obtain ⟨c, c', hopened, hnext⟩ := next_fiveBytes
  exact ⟨c, c', .opened hopened, hnext, exact_frame_iff (.opened hopened) hnext⟩

end Capture

end FrameIndex
