import FrameIndex.Proofs.Inspection.History
import FrameIndex.Proofs.Traversal.Labels

/-!
# Filters are exact

With a filter for a well-known header, a frame is reported exactly if it has that header, and the
report is the one without a filter, with all occurrences of the header added
(`Inspection.filters_are_exact`).

The header is looked up at one depth after another. Each lookup answers with the next range of the
header (`IndexedFrame.map_range_locate?`): the presence bits rule out no header that is there, since
records carry the classes that their identifier is known with. A frame has at most as many records
as there are depths, so none is left out.
-/

namespace FrameIndex

open HeaderRecord (agreeing lastStop)

/-! ## The ranges of a header -/

namespace IndexedFrame

variable (d : IndexedFrame) (id : HeaderId)

/-- Whether the frame has a header. The frame and the payload are always there. -/
def has : Bool := id.isFrame || id.isPayload || d.index.records.any (·.id.agrees id)

/-- The ranges of a header, in the order of its records. The frame itself takes all bytes, and the
payload takes those behind the last record. -/
def ranges : List ByteRange :=
  if id.isFrame then [⟨0, d.data.length⟩]
  else if id.isPayload then
    [⟨lastStop d.index.records, d.data.length - lastStop d.index.records⟩]
  else (agreeing id d.index.records).map fun r => ⟨r.start, r.size⟩

theorem ranges_eq_nil_iff : d.ranges id = [] ↔ d.has id = false := by
  unfold ranges has
  by_cases hframe : id.isFrame = true
  · simp [hframe]
  by_cases hpayload : id.isPayload = true
  · simp [hframe, hpayload]
  · simp [hframe, hpayload, agreeing]

theorem length_ranges_le (h : d.index.records.length ≤ Type2.maxRecords) :
    (d.ranges id).length ≤ Type2.maxRecords := by
  unfold ranges
  split
  · exact Nat.succ_le_succ (Nat.zero_le _)
  split
  · exact Nat.succ_le_succ (Nat.zero_le _)
  · rw [List.length_map]
    exact Nat.le_trans (List.length_filter_le _ _) h

theorem length_records_index_le (layout : Layout) (frame : Frame) :
    (ofFrame layout frame).index.records.length ≤ Type2.maxRecords := by
  unfold ofFrame
  split
  · exact Nat.zero_le _
  · show (Type2.records (indexed frame).descriptor).length ≤ _
    rw [records_indexed]
    exact length_records_le frame

variable {V : Type} {q : Packet V} {layout : Layout} {frame : Frame} {id}

theorem map_range_locate? (h : Holds q (ofFrame layout frame)) (hid : id.Canonical)
    (depth : Nat) :
    (q.locate? id depth).map Placement.range = ((ofFrame layout frame).ranges id)[depth]? := by
  have hindex : q.index = (ofFrame layout frame).index := h.index_eq
  have hlabelled := labelled_index layout frame
  have hrest : ∀ offset, Placement.range (q.index.restFrom offset) =
      ⟨offset, (ofFrame layout frame).data.length - offset⟩ := by
    intro offset
    rw [← captureLength_index, ← hindex]
    rfl
  rw [Packet.locate?, h.isBound, ranges]
  by_cases hframe : id.isFrame = true
  · rw [if_pos hframe, if_pos hframe]
    cases depth with
    | zero => exact congrArg some (hrest 0)
    | succ depth => rfl
  by_cases hpayload : id.isPayload = true
  · rw [if_neg hframe, if_pos hpayload, if_neg hframe, if_pos hpayload, ← hindex]
    cases depth with
    | zero => exact congrArg some (hrest _)
    | succ depth => rfl
  · have hfound := HeaderIndex.getElem?_recordOf? hlabelled.presence_eq (hlabelled.shown hid) depth
    rw [if_neg hframe, if_neg hpayload, if_neg hframe, if_neg hpayload, HeaderIndex.header?,
      if_neg hpayload, List.getElem?_map, ← hfound, ← hindex]
    cases q.index.recordOf? id depth with
    | none => rfl
    | some index =>
      show ((q.index.records[index]?.map _).map Placement.range) = q.index.records[index]?.map _
      rw [Option.map_map]
      rfl

theorem stop_of_mem_ranges (h : Holds q (ofFrame layout frame)) (hid : id.Canonical)
    {range : ByteRange} (hrange : range ∈ (ofFrame layout frame).ranges id) :
    range.offset + range.length ≤ (ofFrame layout frame).data.length := by
  obtain ⟨depth, hdepth⟩ := List.getElem?_of_mem hrange
  rw [← map_range_locate? h hid depth] at hdepth
  obtain ⟨l, hl, rfl⟩ := Option.map_eq_some_iff.1 hdepth
  rw [← h.data_eq]
  exact Nat.le_trans (h.fits.stop_locate?_le hl) h.fits.captureLength_le

end IndexedFrame

/-! ## Reports -/

namespace Inspection

open IndexedFrame

theorem holds_firstBound {layout : Layout} (hlayout : layout.isPacket = true) (frame : Frame) :
    Holds (firstBound layout frame) (ofFrame layout frame) := by
  have hsame : (ofFrame layout frame).layout = layout := layout_ofFrame hlayout frame
  obtain ⟨q, hbind, hholds⟩ := exists_holds_ofFrame layout frame
    (show (Packet.unbound { layout } ViewFactory.raw).chain.head.layout = _ from hsame.symm)
  rw [firstBound, hbind]
  exact hholds

def found (d : IndexedFrame) (id : HeaderId) : List HeaderMatch := entries d.data 0 (d.ranges id)

theorem occurrences_firstBound {layout : Layout} (hlayout : layout.isPacket = true)
    (frame : Frame) {id : HeaderId} (hid : id.Canonical) :
    occurrences (firstBound layout frame).data ((firstBound layout frame).locate? id) maxDepth 0 =
      found (ofFrame layout frame) id := by
  have hholds := holds_firstBound hlayout frame
  have hcount : ((ofFrame layout frame).ranges id).length ≤ 0 + maxDepth := by
    rw [Nat.zero_add]
    exact length_ranges_le _ id (length_records_index_le layout frame)
  rw [hholds.data_eq, occurrences_eq_entries (map_range_locate? hholds hid) _ hcount]
  rfl

theorem found_eq_nil_iff (d : IndexedFrame) (id : HeaderId) : found d id = [] ↔ d.has id = false := by
  rw [← ranges_eq_nil_iff, found, entries, List.map_eq_nil_iff, List.zipIdx_eq_nil_iff]

theorem report_filtered {layout : Layout} (hlayout : layout.isPacket = true) (frame : Frame)
    {id : HeaderId} (hid : id.Canonical) :
    report layout (some id) frame =
      if (ofFrame layout frame).has id then
        some { row (firstBound layout frame) frame.number [] with
          selected := found (ofFrame layout frame) id }
      else none := by
  unfold report
  simp only [occurrences_firstBound hlayout frame hid]
  by_cases hhas : (ofFrame layout frame).has id = true
  · rw [if_pos hhas]
    cases hfound : found (ofFrame layout frame) id with
    | nil =>
      rw [found_eq_nil_iff, hhas] at hfound
      cases hfound
    | cons first rest => rfl
  · have hnone : found (ofFrame layout frame) id = [] :=
      (found_eq_nil_iff _ id).2 (Bool.eq_false_iff.2 hhas)
    rw [if_neg hhas, hnone]

/-- **Filters are exact.** With a filter for a well-known header, a frame that has the header is
answered with the row that it has without a filter, and with every occurrence of the header in the
order of the records; any other frame is passed over. Occurrences lie within the frame. All this is
so whatever was inspected before. -/
theorem filters_are_exact {layout : Layout} {id : HeaderId}
    (hid : id ∈ HeaderId.known.map Prod.fst) {plain filtered : Inspection}
    (hplain : create layout none = .ok plain)
    (hfiltered : create layout (some id) = .ok filtered) (earlier earlier' : List Frame)
    (frame : Frame) :
    let d := ofFrame layout frame
    ∃ row,
      ((plain.inspectAll earlier).1.inspect frame).2 = .ok (some row) ∧
      ((filtered.inspectAll earlier').1.inspect frame).2 =
        .ok (if d.has id then some { row with selected := found d id } else none) ∧
      ∀ range ∈ d.ranges id, range.offset + range.length ≤ d.data.length := by
  intro d
  have hcanonical : id.Canonical := by
    obtain ⟨e, he, rfl⟩ := List.mem_map.1 hid
    exact HeaderId.canonical_known e he
  obtain ⟨hrest, rfl, hnone, -⟩ := atRest_of_create hplain
  obtain ⟨hrest', hlayout, hsome, -⟩ := atRest_of_create hfiltered
  refine ⟨row (firstBound plain.layout frame) frame.number [], ?_, ?_, ?_⟩
  · rw [hrest.snd_inspect_inspectAll, hnone]
    rfl
  · rw [hrest'.snd_inspect_inspectAll, hsome, hlayout, report_filtered hrest.isPacket _ hcanonical]
  · exact fun _ => stop_of_mem_ranges (holds_firstBound hrest.isPacket frame) hcanonical

/-- An IPv4 packet inside another, with GRE in between. -/
def tunneled : Frame where
  number := 4
  timestamp := 0
  captured := 66
  onWire := 66
  linkType := Frame.ethernetLink
  data :=
    List.replicate 12 0 ++ [0x08, 0x00] ++
    [0x45, 0, 0, 52, 0, 9, 0, 0, 64, 47, 0, 0, 10, 0, 0, 1, 10, 0, 0, 2] ++ [0, 0, 0x08, 0x00] ++
    [0x45, 0, 0, 28, 0, 3, 0, 0, 64, 17, 0, 0, 10, 1, 0, 1, 10, 1, 0, 2] ++
    [0, 53, 0, 53, 0, 8, 0, 0]

def plainInspection : Inspection where
  layout := .type2
  filter := none
  packet := .unbound { layout := .type2 } ViewFactory.raw

/-- `filters_are_exact` at that frame, whose IPv4 headers are both found, and at one that has
none. -/
theorem filters_are_exact_tunneled :
    HeaderId.ipv4 ∈ HeaderId.known.map Prod.fst ∧
    create .type2 none = .ok plainInspection ∧
    create .type2 (some .ipv4) = .ok ipv4Inspection ∧
    (∃ row, ((plainInspection.inspectAll [arpRequest]).1.inspect tunneled).2 = .ok (some row) ∧
      ((ipv4Inspection.inspectAll [firstFragment]).1.inspect tunneled).2 = .ok (some { row with
        selected := [⟨0, 14, 20, "4500003400090000402f00000a000001"⟩,
          ⟨1, 38, 20, "4500001c00030000401100000a010001"⟩] })) ∧
    ((ipv4Inspection.inspectAll [tunneled]).1.inspect arpRequest).2 = .ok none := by
  have hid : HeaderId.ipv4 ∈ HeaderId.known.map Prod.fst := by decide
  have hplain : create .type2 none = .ok plainInspection := rfl
  have hfiltered : create .type2 (some .ipv4) = .ok ipv4Inspection := rfl
  have hhas : (ofFrame .type2 tunneled).has .ipv4 = true := by decide +kernel
  have hlacks : ¬ (ofFrame .type2 arpRequest).has .ipv4 = true := by decide +kernel
  have hfound : found (ofFrame .type2 tunneled) .ipv4 =
      [⟨0, 14, 20, "4500003400090000402f00000a000001"⟩,
        ⟨1, 38, 20, "4500001c00030000401100000a010001"⟩] := by decide +kernel
  obtain ⟨row, hrow, hselected, -⟩ :=
    filters_are_exact hid hplain hfiltered [arpRequest] [firstFragment] tunneled
  obtain ⟨_, -, hpassed, -⟩ := filters_are_exact hid hplain hfiltered [] [tunneled] arpRequest
  rw [if_pos hhas, hfound] at hselected
  rw [if_neg hlacks] at hpassed
  exact ⟨hid, hplain, hfiltered, ⟨row, hrow, hselected⟩, hpassed⟩

end Inspection

end FrameIndex
