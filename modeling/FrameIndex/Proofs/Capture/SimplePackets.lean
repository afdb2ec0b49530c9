import FrameIndex.Proofs.Capture.Sections

/-!
# Packets that name no interface

A simple packet does not name the interface that it was captured at. It is read with the link type
of the interface that its section described last, and not of the one that it described first
(`Capture.simple_packets_of_last_interface`). So a packet stands under another link type as soon as
an interface of another link type is described in front of it
(`Capture.simple_packet_of_later_interface`).
-/

namespace FrameIndex

open Feed (capacity)
open StoredBlock (encode contents)
open CaptureBlock (described packets lastLink?)

theorem CaptureBlock.lastLink?_of_described {blocks : List CaptureBlock} {i : CaptureInterface}
    (h : (described blocks).getLast? = some i) : lastLink? blocks = some i.linkType := by
  have hsection : lastLink? (blocks.rtakeWhile (!·.isSection)) = some i.linkType := by
    rw [lastLink?, List.getLast?_map, ← described, h]
    rfl
  have hsplit : blocks.rdropWhile (!·.isSection) ++ blocks.rtakeWhile (!·.isSection) = blocks :=
    List.rdropWhile_append_rtakeWhile
  rw [← hsplit, lastLink?_append, hsection, Option.some_or]

/-- The frame of a simple packet of an interface. It has no time. -/
def CaptureInterface.simpleFrame (i : CaptureInterface) (number onWire : Nat) (data : Bytes) :
    Frame where
  number
  timestamp := 0
  captured := data.length
  onWire
  linkType := i.linkType
  data

theorem BlockReader.Knows.absorb_simple {r : BlockReader} {seen : List CaptureBlock}
    {i : CaptureInterface} (h : r.Knows seen) (hlast : (described seen).getLast? = some i)
    (onWire : Nat) (data : Bytes) : (r.absorb (.simple onWire data)).2 =
      some (.ok (i.simpleFrame (packets seen + 1) onWire data)) := by
  have hlink : r.linkType = i.linkType := by
    rw [h.linkType_eq, CaptureBlock.lastLink?_of_described hlast]
    rfl
  rw [CaptureInterface.simpleFrame, ← hlink, ← h.count_eq]
  rfl

namespace Capture

variable {s : ByteSource} {blocks : List StoredBlock}

/-- **A simple packet is read with the interface that was described last.** Each simple packet
behind an interface of its section is answered with a frame at its place among all packets, and the
link type of the frame is that of the last interface described in front of it. So the first
interface counts only as long as it is the last one, or the last one has its link type. All packets
are read, up to a block that is as large as the buffer. -/
theorem simple_packets_of_last_interface (hs : s.HandsOut blocks) :
    ∃ c read left, ofSource s = .ok c ∧ blocks = read ++ left ∧
      (∀ front behind onWire data last,
        contents read = front ++ .simple onWire data :: behind →
        (described front).getLast? = some last →
          c.answer (packets front) =
            .ok (some (last.simpleFrame (packets front + 1) onWire data))) ∧
      (left = [] ∨ ∃ b more, left = b :: more ∧ capacity ≤ b.bytes.length) := by
  obtain ⟨c, feed, read, left, stop, hopened, rfl, -, hstops, hanswers⟩ := hs.exists_answers
  refine ⟨c, read, left, hopened, rfl, ?_, ?_⟩
  · intro front behind onWire data last hread hlast
    have habsorb := ((BlockReader.knows_start feed).absorbAll front).absorb_simple hlast onWire data
    rw [hread] at hanswers
    exact hanswers.of_getElem? (BlockReader.getElem?_outcomes habsorb)
  · cases hstops with
    | atEnd hleft => exact .inl hleft
    | tooLarge hleft hb => exact .inr ⟨_, _, hleft, hb⟩

def oneInterface : List StoredBlock := [sectionHeader, ethernet, simplePacket]

theorem simple_packet_of_one_interface :
    ∃ s c, s.HandsOut oneInterface ∧ ofSource s = .ok c ∧
      c.answer 0 =
        .ok (some (CaptureInterface.simpleFrame { linkType := 1 } 1 4 [5, 6, 7, 8])) := by
  have hs : ByteSource.HandsOut { pieces := [encode oneInterface] } oneInterface :=
    ⟨⟨rfl, by decide⟩, rfl, by decide +kernel, _, _, .little, rfl, rfl, by decide +kernel⟩
  have hsmall : ∀ b ∈ oneInterface, b.bytes.length < capacity := by decide
  obtain ⟨c, read, left, hopened, hread, hframes, hend⟩ := simple_packets_of_last_interface hs
  refine ⟨_, c, hs, hopened, ?_⟩
  rcases hend with rfl | ⟨b, more, rfl, hb⟩
  · rw [List.append_nil] at hread
    subst hread
    exact hframes (contents (oneInterface.take 2)) _ _ _ _ rfl rfl
  · -- no block is as large as the buffer
    have hmem : b ∈ oneInterface := hread ▸ List.mem_append_right _ List.mem_cons_self
    exact absurd hb (Nat.not_le.2 (hsmall b hmem))

def twoInterfaces : List StoredBlock := [sectionHeader, ethernet, rawInterface, simplePacket]

/-- The first interface is an Ethernet interface, and the packet has the link type of the second. -/
theorem simple_packet_of_later_interface :
    ∃ s c, s.HandsOut twoInterfaces ∧ ofSource s = .ok c ∧
      (described (contents (twoInterfaces.take 3)))[0]? = some { linkType := 1 } ∧
      c.answer 0 =
        .ok (some (CaptureInterface.simpleFrame { linkType := 101 } 1 4 [5, 6, 7, 8])) := by
  have hs : ByteSource.HandsOut { pieces := [encode twoInterfaces] } twoInterfaces :=
    ⟨⟨rfl, by decide⟩, rfl, by decide +kernel, _, _, .little, rfl, rfl, by decide +kernel⟩
  obtain ⟨c, feed, hopened, -, hall⟩ := hs.exists_outcomes
  have hfirst : (({ feed } : BlockReader).outcomes (contents twoInterfaces))[0]? =
      some (.ok (CaptureInterface.simpleFrame { linkType := 101 } 1 4 [5, 6, 7, 8])) := by
    rw [BlockReader.outcomes_start]
    decide +kernel
  exact ⟨_, c, hs, hopened, rfl, (hall (by decide)).of_getElem? hfirst⟩

end Capture

end FrameIndex
