import FrameIndex.Proofs.HeaderIndex.Occurrences
import FrameIndex.Proofs.IndexedFrame.Figures
import FrameIndex.Proofs.IndexedFrame.Records
import FrameIndex.Proofs.Traversal.Plans

/-!
# How the records of a frame are labelled

A traversal records every header under the identifier that is known for its pack and protocol, with
the classes of that one, and leaves the presence bits to be the classes of the records
(`Traversal.Labelled`). Each action of a step keeps this. So two records of a frame that name the
same header have the same identifier, and a well-known header is never hidden by the presence bits
(`HeaderIndex.Labelled.shown`).
-/

namespace FrameIndex

namespace HeaderId

def Canonical (id : HeaderId) : Prop := ofOrdinal id.ordinal = id

instance (id : HeaderId) : Decidable id.Canonical := inferInstanceAs (Decidable (_ = _))

theorem canonical_known : ∀ e ∈ known, e.1.Canonical := by
  decide +kernel

theorem canonical_option {protocol : Nat} (h : protocol < 64) : (option protocol).Canonical := by
  have hall : ∀ protocol : Fin 64, ofOrdinal (option protocol).ordinal = option protocol := by
    decide +kernel
  exact hall ⟨protocol, h⟩

theorem canonical_tcpOption (kind : Nat) : (tcpOption kind).Canonical :=
  canonical_option (by omega)

theorem canonical_ipv4Option (type : Nat) : (ipv4Option type).Canonical :=
  canonical_option (by omega)

theorem Canonical.eq_of_agrees {a b : HeaderId} (ha : a.Canonical) (hb : b.Canonical)
    (h : a.agrees b = true) : a = b := by
  have hordinal : a.ordinal = b.ordinal := beq_iff_eq.1 h
  rw [← ha, ← hb, hordinal]

end HeaderId

theorem Layer.canonical_of_mem_ids (layer : Layer) : ∀ id ∈ layer.ids, id.Canonical := by
  cases layer with
  | ipv6Extension kind => cases kind <;> decide
  | ethernet | llc | vlan | arp | ipv4 | ipv6 | tcp | udp | icmp | icmpv6 | gre => decide

/-! ## Traversals -/

namespace Traversal

/-- Records have canonical identifiers, and the presence bits are left to follow from them. -/
structure Labelled (t : Traversal) : Prop where
  presence_eq : t.draft.presence = none
  canonical : ∀ r ∈ t.draft.records, r.id.Canonical

variable {t : Traversal}

theorem labelled_start (limit : Option Nat) (data : Bytes) : (start limit data).Labelled :=
  ⟨rfl, List.forall_mem_nil _⟩

theorem Labelled.act (h : t.Labelled) {a : Action} (ha : a.Names HeaderId.Canonical) :
    (t.act a).1.Labelled := by
  rcases act_cases ha t with ⟨framing, -, hact⟩ | ⟨f, -, hact⟩ | ⟨more, refused, hact, hmore⟩
  · rw [hact]
    exact ⟨h.presence_eq, h.canonical⟩
  · rw [hact]
    exact ⟨h.presence_eq, h.canonical⟩
  · rw [hact]
    refine ⟨h.presence_eq, fun r hr => ?_⟩
    rcases List.mem_append.1 hr with hr | hr
    · exact h.canonical r hr
    · exact hmore r hr

theorem Labelled.run (h : t.Labelled) (data : Bytes) (s : Station) : (t.run data s).Labelled :=
  run_keeps (fun s _ ha _ ht => ht.act ((does_of_mem_plan ha).names s.layer.canonical_of_mem_ids
    HeaderId.canonical_ipv4Option HeaderId.canonical_tcpOption)) h

end Traversal

/-! ## Dissected frames -/

/-- Records have canonical identifiers, and the presence bits are their classes. -/
structure HeaderIndex.Labelled (ix : HeaderIndex) : Prop where
  presence_eq : ix.presence = classesOf ix.records
  canonical : ∀ r ∈ ix.records, r.id.Canonical

theorem HeaderIndex.Labelled.shown {ix : HeaderIndex} (h : ix.Labelled) {id : HeaderId}
    (hid : id.Canonical) : id.Shown ix.records := by
  intro hclass r hr
  obtain ⟨hmem, hagrees⟩ := List.mem_filter.1 hr
  have hsame : r.id = id := (h.canonical r hmem).eq_of_agrees hid hagrees
  rw [hsame, HeaderId.sharesClass, Nat.and_self]
  exact hclass

namespace IndexedFrame

theorem labelled_traversal (frame : Frame) : (traversal frame).Labelled := by
  have hstart := Traversal.labelled_start (some Type2.maxRecords) (clip frame)
  unfold traversal
  simp only
  split
  · exact hstart.run _ _
  · exact hstart

theorem labelled_index (layout : Layout) (frame : Frame) :
    (ofFrame layout frame).index.Labelled := by
  unfold ofFrame
  split
  · exact ⟨rfl, List.forall_mem_nil _⟩
  · obtain ⟨hpresence, hcanonical⟩ := labelled_traversal frame
    have hrecords : (indexed frame).index.records = (traversal frame).draft.records :=
      records_indexed frame
    refine ⟨?_, hrecords.symm ▸ hcanonical⟩
    have hbits : (indexed frame).index.presence = (draft frame).presenceBits :=
      Type2.presence_encode (draft frame)
    have hnone : (draft frame).presence = none := hpresence
    rw [hbits, hrecords, Type2.Draft.presenceBits, hnone]
    rfl

end IndexedFrame

end FrameIndex
