import FrameIndex.Proofs.IndexedFrame.Records
import FrameIndex.Proofs.Inspection.History

/-!
# Every frame is inspected

Inspection cannot fail: the packet takes every dissected frame, and then the view of every header
that is there, since no range that is looked up lies outside the frame
(`Inspection.AtRest.inspect_eq`). What one frame leaves behind does not matter to the next one,
which is bound to a packet of the same layout.
-/

namespace FrameIndex

namespace Inspection

open IndexedFrame

theorem fst_inspectAll (i : Inspection) (frames : List Frame) :
    (i.inspectAll frames).1 = frames.foldl (fun i frame => (i.inspect frame).1) i := by
  induction frames generalizing i with
  | nil => rfl
  | cons frame rest ih => exact ih (i.inspect frame).1

/-- **Every frame is inspected.** A packet of the layout takes the dissected frame, with the
fragment data if there are any, and tells its lengths and its time; packets of both layouts agree in
this. So there is a result for every frame, whatever was inspected before. Of the records that the
traversal finds, none is refused but the seventeenth. -/
theorem every_frame_is_inspected {V : Type} [Bindable V] {frame : Frame}
    (htime : frame.timestamp < UInt64.size) :
    (∀ layout (p : Packet V), p.chain.head.layout = (ofFrame layout frame).layout →
      ∃ q, (ofFrame layout frame).bindPacket p = (q, .ok ()) ∧ Holds q (ofFrame layout frame) ∧
        Tells q frame) ∧
    (∀ p p' : Packet V, p.chain.head.layout = .type2 → p'.chain.head.layout = .pcap →
      Agree ((ofFrame .type2 frame).bindPacket p).1 ((ofFrame .pcap frame).bindPacket p').1) ∧
    (∀ layout filter i, create layout filter = .ok i → ∀ earlier : List Frame,
      ∃ j row, (earlier.foldl (fun i frame => (i.inspect frame).1) i).inspect frame =
        (j, .ok row)) ∧
    ((traversal frame).refused = none ∨
      (traversal frame).refused = some (.tooManyRecords 17 16)) := by
  have hbind : ∀ layout (p : Packet V), p.chain.head.layout = (ofFrame layout frame).layout →
      ∃ q, (ofFrame layout frame).bindPacket p = (q, .ok ()) ∧ Holds q (ofFrame layout frame) ∧
        Tells q frame := by
    intro layout p hp
    obtain ⟨q, hbind, hholds⟩ := exists_holds_ofFrame layout frame hp
    exact ⟨q, hbind, hholds, hholds.tells htime⟩
  refine ⟨hbind, ?_, ?_, refused_traversal frame⟩
  · intro p p' hp hp'
    obtain ⟨q, hq, -, htells⟩ := hbind .type2 p hp
    obtain ⟨q', hq', -, htells'⟩ := hbind .pcap p' hp'
    rw [hq, hq']
    exact htells.agree htells'
  · intro layout filter i hcreate earlier
    have hran := (atRest_of_create hcreate).1.ran earlier
    obtain ⟨_, hinspect, -⟩ := hran.atRest.inspect_eq frame
    rw [← fst_inspectAll]
    exact ⟨_, _, hinspect⟩

/-- A frame from before the epoch, with more VLAN tags than a descriptor has room for. -/
def manyTags : Frame where
  number := 1
  timestamp := -1
  captured := 94
  onWire := 70000
  linkType := Frame.ethernetLink
  data := List.replicate 12 0 ++ [0x81, 0x00] ++
    (List.replicate 20 [0x00, 0x01, 0x81, 0x00]).flatten

/-- `every_frame_is_inspected` at that frame: the packet is bound, and the seventeenth record was
refused. -/
theorem manyTags_is_inspected :
    manyTags.timestamp < UInt64.size ∧
    (∃ q, (ofFrame .type2 manyTags).bindPacket (Packet.unbound {} ViewFactory.raw) = (q, .ok ()) ∧
      q.index.captureLength = 94 ∧ q.index.wireLength = 65535 ∧ q.index.timestamp = 0) ∧
    (traversal manyTags).refused = some (.tooManyRecords 17 16) := by
  have htime : manyTags.timestamp < UInt64.size := by decide
  obtain ⟨hbind, -, -, hrefused⟩ := @every_frame_is_inspected RawView _ manyTags htime
  obtain ⟨q, hq, -, htells⟩ := hbind .type2 (Packet.unbound {} ViewFactory.raw) rfl
  have hsome : (traversal manyTags).refused ≠ none := by decide +kernel
  have hzero : (q.index.timestamp : Int) = 0 := htells.timestamp_eq
  exact ⟨htime, ⟨q, hq, htells.captureLength_eq, htells.wireLength_eq, Int.ofNat_inj.1 hzero⟩,
    hrefused.resolve_left hsome⟩

end Inspection

end FrameIndex
