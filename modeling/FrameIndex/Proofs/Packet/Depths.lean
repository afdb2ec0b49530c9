import FrameIndex.Packet
import FrameIndex.Type2.Draft
import FrameIndex.Proofs.HeaderIndex.Occurrences
import FrameIndex.Proofs.Type2.Acceptance

/-!
# Headers at their depths

A header may occur several times in a frame, one inside another. Its depths go through its records
in their order, without passing over one or answering twice with the same
(`Packet.headers_at_depths`). A packet locates a header at the depths at which its descriptor does;
the whole frame and the payload are at depth 0 alone.
-/

namespace FrameIndex

open HeaderRecord (indicesOf)

/-! ## Descriptors -/

namespace HeaderIndex

variable {ix : HeaderIndex} {id : HeaderId}

theorem header?_eq_bind (hid : id.isPayload = false) (hpresent : rulesOut ix.presence id = false)
    (depth : Nat) :
    ix.header? id depth = (indicesOf id ix.records)[depth]?.bind ix.recorded? := by
  have hsearched : ix.recordOf? id depth = (indicesOf id ix.records)[depth]? := by
    rw [recordOf?, hpresent, ← HeaderRecord.occurrence?_eq]
    rfl
  rw [header?, hid, hsearched]
  rfl

theorem header?_of_getElem? (hid : id.isPayload = false)
    (hpresent : rulesOut ix.presence id = false) {depth index : Nat}
    (hindex : (indicesOf id ix.records)[depth]? = some index) :
    ∃ r, ix.records[index]? = some r ∧
      ix.header? id depth = some ⟨r.start, r.size, some index, ix.layout⟩ := by
  obtain ⟨r, hr, -⟩ := HeaderRecord.mem_indicesOf_iff.1 (List.mem_of_getElem? hindex)
  refine ⟨r, hr, ?_⟩
  rw [header?_eq_bind hid hpresent, hindex, Option.bind_some, recorded?, hr]
  rfl

theorem isSome_header?_iff (hid : id.isPayload = false)
    (hpresent : rulesOut ix.presence id = false) {depth : Nat} :
    (ix.header? id depth).isSome = true ↔ depth < (indicesOf id ix.records).length := by
  constructor
  · intro hsome
    refine Nat.lt_of_not_le fun hle => ?_
    rw [header?_eq_bind hid hpresent, List.getElem?_eq_none hle] at hsome
    cases hsome
  · intro hlt
    obtain ⟨r, -, hanswer⟩ := header?_of_getElem? hid hpresent (List.getElem?_eq_getElem hlt)
    rw [hanswer, Option.isSome_some]

end HeaderIndex

/-! ## Packets -/

namespace Packet

variable {V : Type} {p : Packet V} {id : HeaderId}

theorem locate?_eq_header? (hbound : p.isBound = true)
    (hid : id.isFrame = false ∧ id.isPayload = false) (depth : Nat) :
    p.locate? id depth = p.index.header? id depth := by
  rw [locate?, hbound, hid.1, hid.2]
  rfl

theorem isSome_locate?_iff (hbound : p.isBound = true)
    (hid : id.isFrame = true ∨ id.isPayload = true) {depth : Nat} :
    (p.locate? id depth).isSome = true ↔ depth = 0 := by
  rw [locate?, hbound]
  by_cases hframe : id.isFrame = true
  · by_cases hdepth : depth = 0 <;> simp [hframe, hdepth]
  · have hpayload : id.isPayload = true := hid.resolve_left hframe
    by_cases hdepth : depth = 0 <;> simp [hframe, hpayload, hdepth]

/-- **Headers at their depths.** A bound descriptor with header records, whose presence bits do not
rule a header out, answers at each depth below the number of records of the header, and at no other.
The answers are the ranges of these records, of all of them, and their indices increase with the
depth. A packet with that descriptor locates every header alike, but for the whole frame and the
payload, which are there at depth 0 and at no other. -/
theorem headers_at_depths {d : Descriptor} (hlayout : d.layout = .type2) (hbound : d.isBound = true)
    {id : HeaderId} (hid : id.isPayload = false)
    (hpresent : rulesOut d.index.presence id = false) :
    let records := d.index.records
    let count := records.countP (·.id.agrees id)
    let indices := indicesOf id records
    (∀ depth, (d.index.header? id depth).isSome = true ↔ depth < count) ∧
    indices.length = count ∧
    indices.Pairwise (· < ·) ∧
    (∀ index, index ∈ indices ↔ ∃ r, records[index]? = some r ∧ r.id.agrees id = true) ∧
    (∀ depth index, indices[depth]? = some index → ∃ r, records[index]? = some r ∧
      d.index.header? id depth = some ⟨r.start, r.size, some index, .type2⟩) ∧
    ∀ (V : Type) (p : Packet V), p.chain.head = d → ∀ (other : HeaderId) (depth : Nat),
      (other.isFrame = false ∧ other.isPayload = false →
        p.locate? other depth = d.index.header? other depth) ∧
      (other.isFrame = true ∨ other.isPayload = true →
        ((p.locate? other depth).isSome = true ↔ depth = 0)) := by
  intro records count indices
  have hlength : indices.length = count := by
    show (indicesOf id records).length = records.countP (·.id.agrees id)
    rw [HeaderRecord.length_indicesOf, HeaderRecord.agreeing, List.countP_eq_length_filter]
  have hindex : d.index.layout = .type2 := by
    rw [Descriptor.index, hlayout]
    rfl
  refine ⟨fun depth => ?_, hlength, HeaderRecord.pairwise_lt_indicesOf id records,
    fun _ => HeaderRecord.mem_indicesOf_iff, fun depth index hindices => ?_, ?_⟩
  · rw [← hlength]
    exact HeaderIndex.isSome_header?_iff hid hpresent
  · rw [← hindex]
    exact HeaderIndex.header?_of_getElem? hid hpresent hindices
  · rintro V p rfl other depth
    exact ⟨fun hother => locate?_eq_header? hbound hother depth,
      fun hother => isSome_locate?_iff hbound hother⟩

/-- A descriptor of an IPv4 packet inside another, with GRE in between and an option behind the
inner header. -/
def nestedDescriptor : Descriptor where
  layout := .type2
  image := some (Type2.Draft.encode {
    captureLength := 66
    records := [⟨.ethernet, 0, 14⟩, ⟨.ipv4, 14, 20⟩, ⟨.gre, 34, 4⟩, ⟨.ipv4, 38, 24⟩,
      ⟨.ipv4Option 20, 58, 4⟩] })
  accepted := by
    rintro bs ⟨⟩
    exact Type2.check_eq_ok_iff.2 (by decide +kernel)

def nestedPacket : Packet RawView :=
  { unbound {} ViewFactory.raw with chain := .last nestedDescriptor, data := List.replicate 66 0 }

theorem headers_at_depths_nested :
    nestedDescriptor.layout = .type2 ∧ nestedDescriptor.isBound = true ∧
    HeaderId.ipv4.isPayload = false ∧ rulesOut nestedDescriptor.index.presence .ipv4 = false ∧
    nestedDescriptor.index.header? .ipv4 0 = some ⟨14, 20, some 1, .type2⟩ ∧
    nestedPacket.locate? .ipv4 1 = some ⟨38, 24, some 3, .type2⟩ ∧
    (nestedDescriptor.index.header? .ipv4 2).isSome = false ∧
    (nestedPacket.locate? .payload 1).isSome = false := by
  have hbound : nestedDescriptor.isBound = true := rfl
  have hid : HeaderId.ipv4.isPayload = false := by decide
  have hpresent : rulesOut nestedDescriptor.index.presence .ipv4 = false := by decide +kernel
  have hrecords : nestedDescriptor.index.records =
      [⟨.ethernet, 0, 14⟩, ⟨.ipv4, 14, 20⟩, ⟨.gre, 34, 4⟩, ⟨.ipv4, 38, 24⟩,
        ⟨.ipv4Option 20, 58, 4⟩] := by decide +kernel
  obtain ⟨hsome, -, -, -, hfound, hlocated⟩ := headers_at_depths rfl hbound hid hpresent
  rw [hrecords] at hsome hfound
  obtain ⟨outer, houter, hfirst⟩ := hfound 0 1 (by decide)
  obtain ⟨inner, hinner, hsecond⟩ := hfound 1 3 (by decide)
  cases houter
  cases hinner
  have hipv4 := (hlocated RawView nestedPacket rfl .ipv4 1).1 (by decide)
  have hpayload := (hlocated RawView nestedPacket rfl .payload 1).2 (by decide)
  refine ⟨rfl, hbound, hid, hpresent, hfirst, hipv4.trans hsecond, ?_, ?_⟩
  · exact Bool.eq_false_iff.2 fun hthird => absurd ((hsome 2).1 hthird) (by decide)
  · exact Bool.eq_false_iff.2 fun hsecond => absurd (hpayload.1 hsecond) (by decide)

end Packet

end FrameIndex
