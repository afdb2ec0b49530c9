import FrameIndex.Proofs.IndexedFrame.Binding

/-!
# Where the payload begins

The payload begins behind the last record. No record reaches further than that unless the options of
the last header were cut short: some of them were recorded, and then there were as many records as
may be, or the rest of the area began with no option. Then the payload begins inside that header
(`IndexedFrame.payload_begins`).
-/

namespace FrameIndex

namespace IndexedFrame

open HeaderRecord

variable {V : Type} {q : Packet V} {frame : Frame}

theorem Bound.locate?_payload (h : Bound q frame) :
    q.locate? .payload 0 = some (q.index.restFrom (lastStop q.index.records)) := by
  unfold Packet.locate?
  rw [h.isBound]
  rfl

theorem Bound.exists_tiled (h : Bound q frame) :
    ∃ stop edge, Tiled q.index.records stop edge ∧
      (lastOptions q.index.records = [] ∨ q.index.records.length = Type2.maxRecords ∨
        OptionSpan.parse (q.data.slice edge (stop - edge)) = []) := by
  obtain ⟨stop, edge, hlaid, hsettled⟩ := tidy_traversal frame
  rw [h.records_eq, h.data_eq]
  refine ⟨stop, edge, hlaid.tiled, hsettled.imp_right fun hsettled => ?_⟩
  refine hsettled.imp_left fun hsated => ?_
  obtain ⟨n, hn, hle⟩ := hsated
  cases hlaid.limit_eq.symm.trans hn
  exact Nat.le_antisymm (hlaid.sound.count _ rfl) hle

variable [Bindable V]

/-- **Where the payload begins.** The payload of a dissected frame begins at the largest end of any
record exactly if the options of the last header were not cut short. Otherwise it begins inside that
header, and there are sixteen records, or no option begins where the payload does. -/
theorem payload_begins (frame : Frame) {p : Packet V} (hp : p.chain.head.layout = .type2) :
    ∃ q l, (indexed frame).bindPacket p = (q, .ok ()) ∧ q.data = clip frame ∧
      q.index.records = (traversal frame).draft.records ∧ q.locate? .payload 0 = some l ∧
      (l.offset = largestStop q.index.records ↔ ¬ CutShort q.index.records) ∧
      (CutShort q.index.records →
        (∃ header ∈ q.index.records, header.start + 20 ≤ l.offset ∧ l.offset < header.stop ∧
          header.stop = largestStop q.index.records) ∧
        (q.index.records.length = 16 ∨
          OptionSpan.parse (q.data.slice l.offset (largestStop q.index.records - l.offset)) =
            [])) := by
  obtain ⟨q, hbind, hbound⟩ := bindPacket_indexed frame hp
  obtain ⟨stop, edge, htiled, hsettled⟩ := hbound.exists_tiled
  refine ⟨q, _, hbind, hbound.data_eq, hbound.records_eq, hbound.locate?_payload,
    htiled.lastStop_eq_iff, fun hcut => ?_⟩
  obtain ⟨hlast, hheader⟩ := htiled.lastStop_of_cutShort hcut
  have hoffset : (q.index.restFrom (lastStop q.index.records)).offset = edge := hlast
  rw [hoffset, htiled.largestStop_eq]
  exact ⟨hheader, hsettled.resolve_left hcut.1⟩

/-- A TCP header of 28 bytes at the end of an Ethernet frame. Behind the first of its options comes
one whose length is stated as zero. -/
def malformedOption : Frame where
  number := 1
  timestamp := 0
  captured := 62
  onWire := 62
  linkType := Frame.ethernetLink
  data :=
    List.replicate 12 0 ++ [0x08, 0x00] ++
    [0x45, 0, 0, 48, 0, 0, 0, 0, 64, 6, 0, 0, 10, 0, 0, 1, 10, 0, 0, 2] ++
    List.replicate 12 0 ++ [0x70, 0, 0, 0, 0, 0, 0, 0] ++ [2, 4, 5, 0xb4, 3, 0, 0, 0]

theorem records_malformedOption : (traversal malformedOption).draft.records =
    [⟨.ethernet, 0, 14⟩, ⟨.ipv4, 14, 20⟩, ⟨.tcp, 34, 28⟩, ⟨.tcpOption 2, 54, 4⟩] := by
  decide +kernel

/-- The last four bytes of that header are payload too, though it reaches up to byte 62. -/
theorem payload_begins_inside_header :
    ∃ q l, (indexed malformedOption).bindPacket (Packet.unbound {} ViewFactory.raw) = (q, .ok ()) ∧
      q.locate? .payload 0 = some l ∧ l.offset = 58 ∧ largestStop q.index.records = 62 := by
  obtain ⟨q, hbind, hbound⟩ := bindPacket_indexed malformedOption
    (show (Packet.unbound {} ViewFactory.raw).chain.head.layout = .type2 from rfl)
  have hrecords := hbound.records_eq.trans records_malformedOption
  refine ⟨q, _, hbind, hbound.locate?_payload, ?_, ?_⟩
  · show lastStop q.index.records = 58
    rw [hrecords]
    decide
  · rw [hrecords]
    decide

theorem payload_begins_malformedOption :
    (Packet.unbound {} ViewFactory.raw).chain.head.layout = .type2 ∧
    ∃ q l, (indexed malformedOption).bindPacket (Packet.unbound {} ViewFactory.raw) = (q, .ok ()) ∧
      q.locate? .payload 0 = some l ∧ CutShort q.index.records ∧
      l.offset < largestStop q.index.records := by
  obtain ⟨q, l, hbind, -, hrecords, hpayload, -, hcut⟩ :=
    @payload_begins RawView _ malformedOption (Packet.unbound {} ViewFactory.raw) rfl
  have hshort : CutShort q.index.records := by
    rw [hrecords, records_malformedOption]
    exact ⟨by decide, ⟨.tcp, 34, 28⟩, by decide, by decide⟩
  obtain ⟨⟨header, -, -, hlt, hstop⟩, -⟩ := hcut hshort
  exact ⟨rfl, q, l, hbind, hpayload, hshort, hstop ▸ hlt⟩

end IndexedFrame

end FrameIndex
