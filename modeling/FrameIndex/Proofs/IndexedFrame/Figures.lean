import FrameIndex.Proofs.IndexedFrame.Binding

/-!
# Lengths and times of a dissected frame

A dissected frame is bound whatever its layout (`IndexedFrame.exists_holds_ofFrame`), and both kinds
of descriptors say the same of the frame (`IndexedFrame.Holds.tells`): its lengths as far as 16 bits
go, and its time from the epoch on.
-/

namespace FrameIndex

theorem toNat_clampWord (n : Nat) : (clampWord n).toNat = min n 65535 := by
  have hmin : min n 65535 ≤ 65535 := Nat.min_le_right _ _
  rw [clampWord, UInt16.toNat_ofNat', Nat.mod_eq_of_lt (by omega)]

/-! ## Capture summaries -/

namespace CaptureSummary

variable (s : CaptureSummary)

theorem length_encode : s.encode.length = size := by
  simp [encode, size]

theorem check_encode : check s.encode = .ok () :=
  Layout.requireLength_eq_ok_iff.2 (Nat.le_of_eq s.length_encode.symm)

theorem timestampOf_encode : timestampOf s.encode = s.timestamp.toNat := by
  simp [timestampOf, encode, Bytes.limit]

theorem captureLengthOf_encode : captureLengthOf s.encode = s.captureLength.toNat := by
  simp [captureLengthOf, encode, Bytes.limit]

theorem wireLengthOf_encode :
    wireLengthOf s.encode = (s.wireLength.getD s.captureLength).toNat := by
  simp [wireLengthOf, encode, Bytes.limit]

end CaptureSummary

namespace IndexedFrame

variable {V : Type} {q : Packet V} {frame : Frame} {layout : Layout}

theorem length_clip (frame : Frame) : (clip frame).length = min frame.data.length 65535 := by
  rw [clip, maxLength, List.length_take, Nat.min_comm]

/-! ## Descriptors -/

/-- The index has the lengths of the frame, and its time as it stands in a descriptor. -/
structure Figures (ix : HeaderIndex) (frame : Frame) : Prop where
  captureLength_eq : ix.captureLength = min frame.data.length 65535
  wireLength_eq : ix.wireLength = min frame.onWire 65535
  timestamp_eq : ix.timestamp = (timestamp frame).toNat

theorem figures_summarized (frame : Frame) :
    Figures (Descriptor.indexOf .pcap (summarized frame).descriptor) frame where
  captureLength_eq := by
    refine (CaptureSummary.captureLengthOf_encode _).trans ?_
    show (clampWord (clip frame).length).toNat = _
    rw [toNat_clampWord, length_clip]
    omega
  wireLength_eq := (CaptureSummary.wireLengthOf_encode _).trans (toNat_clampWord _)
  timestamp_eq := CaptureSummary.timestampOf_encode _

theorem figures_indexed (frame : Frame) :
    Figures (Descriptor.indexOf .type2 (indexed frame).descriptor) frame := by
  have hdescriptor : (indexed frame).descriptor = (draft frame).encode := rfl
  have hcapture : Type2.captureLength (draft frame).encode = min frame.data.length 65535 := by
    rw [Type2.captureLength_encode, captureLength_draft, length_clip]
  have hwire : Type2.wireLength (draft frame).encode = min frame.onWire 65535 := by
    rw [Type2.wireLength_encode]
    exact toNat_clampWord frame.onWire
  rw [hdescriptor]
  exact ⟨hcapture, hwire, Type2.timestamp_encode _⟩

theorem figures_ofFrame (layout : Layout) (frame : Frame) :
    Figures (Descriptor.indexOf (ofFrame layout frame).layout (ofFrame layout frame).descriptor)
      frame := by
  unfold ofFrame
  split
  · exact figures_summarized frame
  · exact figures_indexed frame

/-! ## Bound packets -/

structure Tells (q : Packet V) (frame : Frame) : Prop where
  isBound : q.isBound = true
  data_eq : q.data = frame.data.take 65535
  captureLength_eq : q.index.captureLength = min frame.data.length 65535
  length_data : q.data.length = q.index.captureLength
  wireLength_eq : q.index.wireLength = min frame.onWire 65535
  timestamp_eq : (q.index.timestamp : Int) = max frame.timestamp 0
  locate?_frame : q.locate? .frame 0 =
    some ⟨0, min frame.data.length 65535, none, q.index.layout⟩

/-- The packets say the same of the frame they are bound to, and the same range is that of the whole
frame. -/
structure Agree (p q : Packet V) : Prop where
  data_eq : p.data = q.data
  captureLength_eq : p.index.captureLength = q.index.captureLength
  wireLength_eq : p.index.wireLength = q.index.wireLength
  timestamp_eq : p.index.timestamp = q.index.timestamp
  locate?_frame : (p.locate? .frame 0).map (fun l => (l.offset, l.length, l.record)) =
    (q.locate? .frame 0).map fun l => (l.offset, l.length, l.record)

theorem Tells.agree {p : Packet V} (hp : Tells p frame) (hq : Tells q frame) : Agree p q where
  data_eq := hp.data_eq.trans hq.data_eq.symm
  captureLength_eq := hp.captureLength_eq.trans hq.captureLength_eq.symm
  wireLength_eq := hp.wireLength_eq.trans hq.wireLength_eq.symm
  timestamp_eq := Int.ofNat_inj.1 (hp.timestamp_eq.trans hq.timestamp_eq.symm)
  locate?_frame := by
    rw [hp.locate?_frame, hq.locate?_frame]
    rfl

theorem data_ofFrame (layout : Layout) (frame : Frame) :
    (ofFrame layout frame).data = clip frame := by
  unfold ofFrame
  split <;> rfl

theorem layout_ofFrame (h : layout.isPacket = true) (frame : Frame) :
    (ofFrame layout frame).layout = layout := by
  unfold ofFrame
  cases layout with
  | pcap => rfl
  | type2 => rfl
  | ipf => cases h

def index (d : IndexedFrame) : HeaderIndex := Descriptor.indexOf d.layout d.descriptor

theorem captureLength_index (layout : Layout) (frame : Frame) :
    (ofFrame layout frame).index.captureLength = (ofFrame layout frame).data.length := by
  rw [data_ofFrame, length_clip]
  exact (figures_ofFrame layout frame).captureLength_eq

/-- Nothing that is looked up lies outside the frame, so no view refuses its range. -/
theorem Holds.fits (h : Holds q (ofFrame layout frame)) : q.Fits := by
  refine ⟨q.chain.head.bounded_index, ?_⟩
  rw [show q.index = (ofFrame layout frame).index from h.index_eq, captureLength_index, h.data_eq]

/-- Every time that fits in 64 bits, with a sign or without, stands in a descriptor as it is, or as
the epoch if it is before that. -/
theorem toNat_timestamp (h : frame.timestamp < UInt64.size) :
    ((timestamp frame).toNat : Int) = max frame.timestamp 0 := by
  have hlt : frame.timestamp.toNat < UInt64.size := by
    have hpos : 0 < UInt64.size := by decide
    omega
  rw [timestamp, UInt64.toNat_ofNat_of_lt' hlt, Int.ofNat_toNat]

theorem Holds.tells (h : Holds q (ofFrame layout frame)) (htime : frame.timestamp < UInt64.size) :
    Tells q frame := by
  have hfigures := figures_ofFrame layout frame
  rw [← h.index_eq] at hfigures
  have hdata : q.data = clip frame := h.data_eq.trans (data_ofFrame layout frame)
  constructor
  case isBound => exact h.isBound
  case data_eq => exact hdata
  case captureLength_eq => exact hfigures.captureLength_eq
  case length_data => rw [hdata, length_clip, hfigures.captureLength_eq]
  case wireLength_eq => exact hfigures.wireLength_eq
  case timestamp_eq => rw [hfigures.timestamp_eq, toNat_timestamp htime]
  case locate?_frame =>
    rw [Packet.locate?, h.isBound]
    show some (q.index.restFrom 0) = _
    rw [HeaderIndex.restFrom, hfigures.captureLength_eq, Nat.sub_zero]

variable [Bindable V]

/-- **Every frame is bound, whatever the layout.** -/
theorem exists_holds_ofFrame (layout : Layout) (frame : Frame) {p : Packet V}
    (hp : p.chain.head.layout = (ofFrame layout frame).layout) :
    ∃ q, (ofFrame layout frame).bindPacket p = (q, .ok ()) ∧ Holds q (ofFrame layout frame) := by
  unfold ofFrame at hp ⊢
  by_cases hlayout : layout = .pcap
  · rw [if_pos hlayout] at hp ⊢
    refine exists_holds hp (CaptureSummary.check_encode _) ?_ fun _ hbytes => by cases hbytes
    have hlength := (figures_summarized frame).captureLength_eq
    rw [← length_clip] at hlength
    exact Nat.le_of_eq hlength
  · rw [if_neg hlayout] at hp ⊢
    exact exists_holds_indexed frame hp

end IndexedFrame

end FrameIndex
