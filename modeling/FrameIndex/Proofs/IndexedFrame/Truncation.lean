import FrameIndex.Proofs.IndexedFrame.Records
import FrameIndex.Proofs.Traversal.Truncation
import Mathlib.Data.List.Infix

/-!
# Frames that are cut off or filled up

A frame that was cut off, or one without the bytes that fill it up, has the first records of the
whole one, with a single exception: an ICMP timestamp message that ends with the frame is recorded,
and it is not recorded where anything follows it (`IndexedFrame.records_of_cut`).
-/

namespace FrameIndex

namespace IndexedFrame

open Traversal (readings IsTimestamp)

variable {frame : Frame}

theorem records_eq_readings (hlink : frame.linkType = Frame.ethernetLink) :
    Type2.records (indexed frame).descriptor = (readings (clip frame) ⟨.ethernet, 0⟩).take 16 := by
  rw [records_indexed, traversal, if_pos hlink]
  have harrived : Traversal.Arrived (some Type2.maxRecords) (clip frame) ⟨.ethernet, 0⟩
      (Traversal.start (some Type2.maxRecords) (clip frame)) :=
    ⟨Traversal.tidy_start _ (length_clip_le frame), .inl rfl⟩
  exact harrived.records_run

theorem stop_of_mem_records (hlink : frame.linkType = Frame.ethernetLink) {r : HeaderRecord}
    (hr : r ∈ Type2.records (indexed frame).descriptor) (h : IsTimestamp r) :
    r.stop = (clip frame).length := by
  rw [records_eq_readings hlink] at hr
  exact Traversal.stop_of_mem_readings (length_clip_le frame) (List.mem_of_mem_take hr) h

variable {cut whole : Frame}

/-- The records of the front are the first ones of the whole, or one is left over. -/
theorem records_cut_cases (hcut : cut.linkType = Frame.ethernetLink)
    (hwhole : whole.linkType = Frame.ethernetLink) (hbytes : cut.data <+: whole.data) :
    Type2.records (indexed cut).descriptor <+: Type2.records (indexed whole).descriptor ∨
      clip cut ≠ clip whole ∧ ∃ r, IsTimestamp r ∧
        Type2.records (indexed cut).descriptor =
          Type2.records (indexed whole).descriptor ++ [r] := by
  obtain ⟨more, hmore⟩ : clip cut <+: clip whole := List.IsPrefix.take hbytes maxLength
  rw [records_eq_readings hcut, records_eq_readings hwhole, ← hmore]
  have hsmall : (clip cut ++ more).length ≤ 65535 := by
    rw [hmore]
    exact length_clip_le whole
  rcases Traversal.readings_append hsmall ⟨.ethernet, 0⟩ with hreadings | ⟨hne, r, hr, hreadings⟩
  · exact .inl (List.IsPrefix.take hreadings 16)
  · rw [hreadings]
    by_cases hfull : 16 ≤ (readings (clip cut ++ more) ⟨.ethernet, 0⟩).length
    · rw [List.take_append_of_le_length hfull]
      exact .inl (List.prefix_refl _)
    · refine .inr ⟨?_, r, hr, ?_⟩
      · simpa using hne
      · rw [List.take_of_length_le (by rw [List.length_append, List.length_singleton]; omega),
          List.take_of_length_le (by omega)]

/-- **What is recorded of a frame that was cut off.** Its records are the first ones of the whole
frame exactly if nothing was cut off, or none of them is an ICMP timestamp message. Otherwise the
last of them is such a message, which ends with the frame, and the whole frame has all others. -/
theorem records_of_cut (hcut : cut.linkType = Frame.ethernetLink)
    (hwhole : whole.linkType = Frame.ethernetLink) (hbytes : cut.data <+: whole.data) :
    (Type2.records (indexed cut).descriptor <+: Type2.records (indexed whole).descriptor ↔
      clip cut = clip whole ∨ ∀ r ∈ Type2.records (indexed cut).descriptor, ¬ IsTimestamp r) ∧
    (¬ Type2.records (indexed cut).descriptor <+: Type2.records (indexed whole).descriptor →
      ∃ r, IsTimestamp r ∧ r.stop = (clip cut).length ∧
        Type2.records (indexed cut).descriptor =
          Type2.records (indexed whole).descriptor ++ [r]) := by
  have hcases := records_cut_cases hcut hwhole hbytes
  refine ⟨⟨fun hfront => ?_, fun hsame => ?_⟩, fun hnot => ?_⟩
  · -- a timestamp message that is in both ends with both
    by_contra hcon
    simp only [not_or, not_forall, not_not] at hcon
    obtain ⟨hne, r, hr, htimestamp⟩ := hcon
    have hstop := stop_of_mem_records hcut hr htimestamp
    have hstop' := stop_of_mem_records hwhole (hfront.subset hr) htimestamp
    exact hne ((List.IsPrefix.take hbytes maxLength).eq_of_length (hstop.symm.trans hstop'))
  · rcases hcases with hfront | ⟨hne, r, hr, hrecords⟩
    · exact hfront
    · rcases hsame with hsame | hnone
      · exact absurd hsame hne
      · have hmem : r ∈ Type2.records (indexed cut).descriptor := by
          rw [hrecords]
          exact List.mem_append_right _ List.mem_cons_self
        exact absurd hr (hnone r hmem)
  · obtain ⟨-, r, hr, hrecords⟩ := hcases.resolve_left hnot
    refine ⟨r, hr, stop_of_mem_records hcut ?_ hr, hrecords⟩
    rw [hrecords]
    exact List.mem_append_right _ List.mem_cons_self

/-- An ICMP timestamp request in an Ethernet frame of 54 bytes. -/
def timestampRequest : Frame where
  number := 1
  timestamp := 0
  captured := 54
  onWire := 54
  linkType := Frame.ethernetLink
  data :=
    List.replicate 12 0 ++ [0x08, 0x00] ++
    [0x45, 0, 0, 40, 0, 0, 0, 0, 64, 1, 0, 0, 10, 0, 0, 1, 10, 0, 0, 2] ++
    [13, 0, 0, 0] ++ List.replicate 16 0

/-- The same request, filled up to the least size of an Ethernet frame. -/
def paddedRequest : Frame :=
  { timestampRequest with
    captured := 60
    onWire := 60
    data := timestampRequest.data ++ List.replicate 6 0 }

theorem records_timestampRequest : Type2.records (indexed timestampRequest).descriptor =
    [⟨.ethernet, 0, 14⟩, ⟨.ipv4, 14, 20⟩, ⟨.icmp, 34, 20⟩] := by
  rw [records_indexed]
  decide +kernel

theorem records_paddedRequest : Type2.records (indexed paddedRequest).descriptor =
    [⟨.ethernet, 0, 14⟩, ⟨.ipv4, 14, 20⟩] := by
  rw [records_indexed]
  decide +kernel

/-- The six bytes behind the request keep it from being recorded. -/
theorem padding_hides_timestamp :
    timestampRequest.linkType = Frame.ethernetLink ∧ paddedRequest.linkType = Frame.ethernetLink ∧
      timestampRequest.data <+: paddedRequest.data ∧
      ¬ Type2.records (indexed timestampRequest).descriptor <+:
        Type2.records (indexed paddedRequest).descriptor := by
  refine ⟨rfl, rfl, List.prefix_append _ _, fun h => ?_⟩
  have hlen := h.length_le
  rw [records_timestampRequest, records_paddedRequest] at hlen
  exact absurd hlen (by decide)

theorem records_of_cut_timestamp :
    timestampRequest.linkType = Frame.ethernetLink ∧ paddedRequest.linkType = Frame.ethernetLink ∧
      timestampRequest.data <+: paddedRequest.data ∧
      ∃ r, IsTimestamp r ∧ r.stop = 54 ∧
        Type2.records (indexed timestampRequest).descriptor =
          Type2.records (indexed paddedRequest).descriptor ++ [r] := by
  have hbytes : timestampRequest.data <+: paddedRequest.data := List.prefix_append _ _
  have hlen : ¬ Type2.records (indexed timestampRequest).descriptor <+:
      Type2.records (indexed paddedRequest).descriptor := fun h => by
    have hlen := h.length_le
    rw [records_timestampRequest, records_paddedRequest] at hlen
    exact absurd hlen (by decide)
  exact ⟨rfl, rfl, hbytes, (records_of_cut rfl rfl hbytes).2 hlen⟩

end IndexedFrame

end FrameIndex
