import FrameIndex.Proofs.Packet.Confinement
import FrameIndex.Proofs.Packet.Depths
import FrameIndex.Proofs.Record.OptionRuns

/-!
# Extensions of a header

An extension is looked up behind the record of the header that it extends. Whoever has looked the
header up already may hand in the index of that record, and the presence bits and the records in
front of it are not looked at again. The answer is the same (`HeaderIndex.extension?_of_recordOf?`).

From that record on there is one answer for each extension: the first record for the option in the
unbroken run behind it, or, for the payload, everything that lies behind the header
(`HeaderIndex.hint_is_a_shortcut`).
-/

namespace FrameIndex

namespace HeaderIndex

variable {ix : HeaderIndex} {id ext : HeaderId} {depth index parent : Nat} {hint : Option Nat}
  {l : Placement}

theorem recorded?_eq_some_iff : ix.recorded? index = some l ↔
    ∃ r, ix.records[index]? = some r ∧ l = ⟨r.start, r.size, some index, ix.layout⟩ := by
  rw [recorded?, Option.map_eq_some_iff]
  simp only [eq_comm]

theorem exists_recorded? (h : index < ix.records.length) :
    ∃ l, ix.recorded? index = some l ∧ l.record = some index := by
  obtain ⟨r, hr⟩ : ∃ r, ix.records[index]? = some r := ⟨_, List.getElem?_eq_getElem h⟩
  exact ⟨_, recorded?_eq_some_iff.2 ⟨r, hr, rfl⟩, rfl⟩

theorem getElem?_of_recordOf? (h : ix.recordOf? id depth = some index) :
    ∃ r, ix.records[index]? = some r ∧ r.id.agrees id = true := by
  unfold recordOf? at h
  split at h
  · cases h
  · rw [HeaderRecord.occurrence?_eq] at h
    exact HeaderRecord.mem_indicesOf_iff.1 (List.mem_of_getElem? h)

theorem lt_length_of_recordOf? (h : ix.recordOf? id depth = some index) :
    index < ix.records.length := by
  obtain ⟨r, hr, -⟩ := getElem?_of_recordOf? h
  exact (List.getElem?_eq_some_iff.1 hr).1

theorem recordOf?_eq_bind_record (hid : id.isPayload = false) (depth : Nat) :
    ix.recordOf? id depth = (ix.header? id depth).bind (·.record) := by
  rw [header?, hid]
  cases hrecord : ix.recordOf? id depth with
  | none => rfl
  | some index =>
    obtain ⟨l, hl, hindex⟩ := exists_recorded? (lt_length_of_recordOf? hrecord)
    simp [hl, hindex]

theorem recordOf?_of_header? (h : ix.header? id depth = some l) :
    ∃ index, l.record = some index ∧ ix.recordOf? id depth = some index := by
  unfold header? at h
  split at h
  · cases h
  · obtain ⟨index, hrecord, hl⟩ := Option.bind_eq_some_iff.1 h
    obtain ⟨r, -, rfl⟩ := recorded?_eq_some_iff.1 hl
    exact ⟨index, rfl, hrecord⟩

theorem header?_eq_none_iff (hid : id.isPayload = false) :
    ix.header? id depth = none ↔ ix.recordOf? id depth = none := by
  constructor
  · intro h
    rw [recordOf?_eq_bind_record hid, h]
    rfl
  · intro h
    rw [header?, hid, h]
    rfl

theorem extension?_of_recordOf? (h : ix.recordOf? id depth = some index) :
    ix.extension? id ext depth (some index) = ix.extension? id ext depth none := by
  have hparent : ix.parent? id depth (some index) = ix.parent? id depth none :=
    (if_pos (lt_length_of_recordOf? h)).trans h.symm
  rw [extension?, extension?, hparent]

/-- Where an extension of the header with a given record lies: an option at the first record for it
in the unbroken run behind that record, the payload from the end of the header to that of the
captured bytes. -/
inductive Extends (ix : HeaderIndex) (parent : Nat) (ext : HeaderId) (l : Placement) : Prop where
  | option (not_payload : ext.isPayload = false) {index : Nat}
      (first : HeaderRecord.FirstOption ix.records parent ext index)
      (recorded : ix.recorded? index = some l)
  | payload (is_payload : ext.isPayload = true) {r : HeaderRecord}
      (header : ix.records[parent]? = some r) (offset_eq : l.offset = r.stop)
      (stop_eq : l.stop = ix.captureLength) (record_eq : l.record = none)
      (layout_eq : l.layout = ix.layout)

theorem extends_iff_of_not_payload (hext : ext.isPayload = false) :
    ix.Extends parent ext l ↔
      (HeaderRecord.option? ix.records parent ext).bind ix.recorded? = some l := by
  rw [Option.bind_eq_some_iff]
  simp only [HeaderRecord.option?_eq_some_iff]
  constructor
  · intro h
    cases h with
    | option _ first recorded => exact ⟨_, first, recorded⟩
    | payload is_payload => simp [hext] at is_payload
  · rintro ⟨index, first, recorded⟩
    exact .option hext first recorded

theorem Bounded.extends_iff_of_payload (h : ix.Bounded) (hext : ext.isPayload = true) :
    ix.Extends parent ext l ↔
      (ix.records[parent]?.map fun r => ix.restFrom r.stop) = some l := by
  rw [Option.map_eq_some_iff]
  constructor
  · intro hl
    cases hl with
    | option not_payload => simp [hext] at not_payload
    | payload _ header offset_eq stop_eq record_eq layout_eq =>
      refine ⟨_, header, ?_⟩
      obtain ⟨offset, length, record, layout⟩ := l
      simp only [Placement.stop] at offset_eq stop_eq record_eq layout_eq
      rw [restFrom, ← stop_eq, ← offset_eq, record_eq, layout_eq, Nat.add_sub_cancel_left]
  · rintro ⟨r, hr, rfl⟩
    exact .payload hext hr rfl (stop_restFrom (h r (List.mem_of_getElem? hr))) rfl rfl

/-- An extension is found exactly where it lies behind the record of the header. -/
theorem Bounded.extension?_eq_some_iff (h : ix.Bounded) :
    ix.extension? id ext depth hint = some l ↔
      ∃ parent, ix.parent? id depth hint = some parent ∧ ix.Extends parent ext l := by
  rw [extension?, Option.bind_eq_some_iff]
  refine exists_congr fun parent => and_congr_right fun _ => ?_
  cases hext : ext.isPayload with
  | false => exact (extends_iff_of_not_payload hext).symm
  | true => exact (h.extends_iff_of_payload hext).symm

/-- **A hint is a shortcut.** If a descriptor locates a header at a depth, it does so by a record,
and an extension of the header is looked up with the index of that record as it is without. If it
locates no header there, it finds no extension of one either, as long as the header is not the
payload. With a hint or without, an extension is found exactly where it lies behind the record of
its header, which is the hinted one or else that of the located header. -/
theorem hint_is_a_shortcut (d : Descriptor) (id ext : HeaderId) (depth : Nat) :
    let ix := d.index
    (∀ l, ix.header? id depth = some l → ∃ index, l.record = some index ∧
      ix.extension? id ext depth (some index) = ix.extension? id ext depth none) ∧
    (ix.header? id depth = none → id.isPayload = false →
      ix.extension? id ext depth none = none) ∧
    (∀ hint l, ix.extension? id ext depth hint = some l ↔
      ∃ parent, ix.parent? id depth hint = some parent ∧ ix.Extends parent ext l) ∧
    (id.isPayload = false →
      ix.parent? id depth none = (ix.header? id depth).bind (·.record)) := by
  intro ix
  refine ⟨fun l hl => ?_, fun hnone hid => ?_, fun hint l => ?_, fun hid => ?_⟩
  · obtain ⟨index, hindex, hrecord⟩ := recordOf?_of_header? hl
    exact ⟨index, hindex, extension?_of_recordOf? hrecord⟩
  · have hparent : ix.parent? id depth none = none := (header?_eq_none_iff hid).1 hnone
    rw [extension?, hparent, Option.bind_none]
  · exact d.bounded_index.extension?_eq_some_iff
  · exact recordOf?_eq_bind_record hid depth

/-- `hint_is_a_shortcut` for the inner of two IPv4 headers, its option and its payload, and for a
header that is not there. -/
theorem hint_is_a_shortcut_nested :
    let ix := Packet.nestedDescriptor.index
    ix.header? .ipv4 1 = some ⟨38, 24, some 3, .type2⟩ ∧
    ix.extension? .ipv4 (.ipv4Option 20) 1 (some 3) = ix.extension? .ipv4 (.ipv4Option 20) 1 none ∧
    ix.extension? .ipv4 (.ipv4Option 20) 1 none = some ⟨58, 4, some 4, .type2⟩ ∧
    ix.extension? .ipv4 .payload 1 none = some ⟨62, 4, none, .type2⟩ ∧
    ix.header? .udp 0 = none ∧ HeaderId.udp.isPayload = false ∧
    ix.extension? .udp .payload 0 none = none := by
  intro ix
  have hrecords : ix.records = [⟨.ethernet, 0, 14⟩, ⟨.ipv4, 14, 20⟩, ⟨.gre, 34, 4⟩,
      ⟨.ipv4, 38, 24⟩, ⟨.ipv4Option 20, 58, 4⟩] := by decide +kernel
  have hinner : ix.header? .ipv4 1 = some ⟨38, 24, some 3, .type2⟩ := by decide +kernel
  have hudp : ix.header? .udp 0 = none := by decide +kernel
  have hparent : ix.parent? .ipv4 1 none = some 3 := by
    rw [(hint_is_a_shortcut Packet.nestedDescriptor .ipv4 .payload 1).2.2.2 (by decide)]
    exact congrArg (·.bind (·.record)) hinner
  obtain ⟨hhint, -, hoption, -⟩ :=
    hint_is_a_shortcut Packet.nestedDescriptor .ipv4 (.ipv4Option 20) 1
  obtain ⟨-, -, hpayload, -⟩ := hint_is_a_shortcut Packet.nestedDescriptor .ipv4 .payload 1
  obtain ⟨-, habsent, -, -⟩ := hint_is_a_shortcut Packet.nestedDescriptor .udp .payload 0
  obtain ⟨index, hindex, hsame⟩ := hhint _ hinner
  obtain rfl := Option.some.inj hindex
  refine ⟨hinner, hsame, ?_, ?_, hudp, by decide, habsent hudp (by decide)⟩
  · have hfirst : HeaderRecord.option? ix.records 3 (.ipv4Option 20) = some 4 := by
      rw [hrecords]
      decide +kernel
    exact (hoption none _).2
      ⟨3, hparent, .option (by decide) (HeaderRecord.option?_eq_some_iff.1 hfirst) (by decide +kernel)⟩
  · have hheader : ix.records[3]? = some ⟨.ipv4, 38, 24⟩ := by
      rw [hrecords]
      rfl
    exact (hpayload none _).2
      ⟨3, hparent, .payload (by decide) hheader rfl (by decide +kernel) rfl rfl⟩

end HeaderIndex

end FrameIndex
