import FrameIndex.Proofs.Packet.Confinement
import FrameIndex.Proofs.Traversal.Tidiness
import FrameIndex.Proofs.Type2.RoundTrip

/-!
# A dissected frame is bound

The descriptor that dissection makes of a frame is one of a sound draft, so a packet takes it
together with the frame and the fragment data, whatever the packet was bound to before
(`IndexedFrame.bindPacket_indexed`). The packet then reads what the traversal found
(`IndexedFrame.Bound.records_eq`).
-/

namespace FrameIndex

theorem FragmentPlace.check_encode (f : FragmentPlace) : check f.encode = .ok () := by
  refine Layout.requireLength_eq_ok_iff.2 ?_
  simp [encode, size]

namespace IndexedFrame

def draft (frame : Frame) : Type2.Draft :=
  { (traversal frame).draft with
    wireLength := some (clampWord frame.onWire)
    timestamp := timestamp frame }

structure Bound {V : Type} (q : Packet V) (frame : Frame) : Prop where
  data_eq : q.data = clip frame
  layout_eq : q.chain.head.layout = .type2
  image_eq : q.chain.head.image = some (draft frame).encode

variable {V : Type} {q : Packet V} {frame : Frame}

theorem sound_draft (frame : Frame) : (draft frame).Sound (some Type2.maxRecords) := by
  obtain ⟨stop, edge, hlaid, -⟩ := tidy_traversal frame
  exact ⟨hlaid.sound.count, hlaid.sound.within, hlaid.sound.headed⟩

theorem captureLength_draft (frame : Frame) :
    (draft frame).captureLength.toNat = (clip frame).length := by
  obtain ⟨stop, edge, hlaid, -⟩ := tidy_traversal frame
  exact hlaid.captureLength_eq

theorem length_records_le (frame : Frame) : (draft frame).records.length ≤ Type2.maxRecords :=
  (sound_draft frame).count _ rfl

/-! ## What a bound packet reads -/

theorem Bound.isBound (h : Bound q frame) : q.isBound = true := by
  rw [Packet.isBound, Descriptor.isBound, h.image_eq]
  rfl

theorem Bound.index_eq (h : Bound q frame) :
    q.index = Descriptor.indexOf .type2 (draft frame).encode := by
  rw [Packet.index, Descriptor.index, Descriptor.bytes, h.layout_eq, h.image_eq]
  rfl

theorem Bound.records_eq (h : Bound q frame) :
    q.index.records = (traversal frame).draft.records := by
  have hlt : (draft frame).records.length < 32 :=
    Nat.lt_of_le_of_lt (length_records_le frame) (by decide)
  rw [h.index_eq]
  exact Type2.records_encode hlt

/-! ## Binding -/

/-- The packet is bound to the dissected frame: its own descriptor holds the descriptor's bytes, and
fragment data is all that is chained behind. -/
structure Holds (q : Packet V) (d : IndexedFrame) : Prop where
  data_eq : q.data = d.data
  layout_eq : q.chain.head.layout = d.layout
  image_eq : q.chain.head.image = some d.descriptor
  chained_eq : q.chain.toList.tail.map (fun c => (c.layout, c.image)) =
    d.fragment.toList.map fun bs => (.ipf, some bs)

theorem Holds.isBound {d : IndexedFrame} (h : Holds q d) : q.isBound = true := by
  rw [Packet.isBound, Descriptor.isBound, h.image_eq]
  rfl

theorem Holds.index_eq {d : IndexedFrame} (h : Holds q d) :
    q.index = Descriptor.indexOf d.layout d.descriptor := by
  rw [Packet.index, Descriptor.index, Descriptor.bytes, h.layout_eq, h.image_eq]
  rfl

variable [Bindable V]

theorem exists_holds {d : IndexedFrame} {p : Packet V} (hp : p.chain.head.layout = d.layout)
    (hcheck : d.layout.check d.descriptor = .ok ())
    (hlength : (Descriptor.indexOf d.layout d.descriptor).captureLength ≤ d.data.length)
    (hfragment : ∀ bs, d.fragment = some bs → FragmentPlace.check bs = .ok ()) :
    ∃ q, d.bindPacket p = (q, .ok ()) ∧ Holds q d := by
  let own : Descriptor := ⟨d.layout, some d.descriptor, fun _ hb => Option.some.inj hb ▸ hcheck⟩
  have hown : Descriptor.ofBytes p.chain.head.layout d.descriptor = .ok own :=
    Descriptor.ofBytes_eq_ok_iff.2 ⟨hp ▸ hcheck, hp.symm, rfl⟩
  have hbind : p.bind d.data d.descriptor =
      ({ p.unbind with chain := .last own, data := d.data }, .ok ()) :=
    Packet.bind_eq_ok_iff.2 ⟨own, hown, hlength, rfl⟩
  unfold bindPacket
  rw [hbind]
  cases hbytes : d.fragment with
  | none => exact ⟨_, rfl, rfl, rfl, rfl, by rw [hbytes]; rfl⟩
  | some bs =>
    -- fragment data is chained behind the descriptor, and nothing else changes
    have hattach : Descriptor.ofBytes .ipf bs =
        .ok ⟨.ipf, some bs, fun _ hb => Option.some.inj hb ▸ hfragment bs hbytes⟩ :=
      Descriptor.ofBytes_eq_ok_iff.2 ⟨hfragment bs hbytes, rfl, rfl⟩
    simp only [Packet.attachEncoded, hattach, Except.mapError, Except.map]
    exact ⟨_, rfl, rfl, rfl, rfl, by rw [hbytes]; rfl⟩

theorem check_fragment {bs : Bytes} (h : (indexed frame).fragment = some bs) :
    FragmentPlace.check bs = .ok () := by
  obtain ⟨f, -, rfl⟩ := Option.map_eq_some_iff.1 h
  exact f.check_encode

theorem exists_holds_indexed (frame : Frame) {p : Packet V} (hp : p.chain.head.layout = .type2) :
    ∃ q, (indexed frame).bindPacket p = (q, .ok ()) ∧ Holds q (indexed frame) := by
  have hlength : Type2.captureLength (draft frame).encode = (clip frame).length :=
    (Type2.captureLength_encode _).trans (captureLength_draft frame)
  exact exists_holds hp (Type2.check_encode (sound_draft frame)) (Nat.le_of_eq hlength)
    fun _ => check_fragment

/-- **A dissected frame is bound.** Every packet of the layout takes it. -/
theorem bindPacket_indexed (frame : Frame) {p : Packet V} (hp : p.chain.head.layout = .type2) :
    ∃ q, (indexed frame).bindPacket p = (q, .ok ()) ∧ Bound q frame := by
  obtain ⟨q, hbind, hholds⟩ := exists_holds_indexed frame hp
  exact ⟨q, hbind, hholds.data_eq, hholds.layout_eq, hholds.image_eq⟩

end IndexedFrame

end FrameIndex
