import FrameIndex.Type2.Memo
import FrameIndex.Proofs.Type2.Records
import FrameIndex.Proofs.Type2.RoundTrip

/-!
# A descriptor is rebuilt from what is read of it

Everything that is read of an accepted descriptor, put into a new draft in the same order, is taken
by the draft, unless an option stands in front of all headers. What the draft then encodes are the
bytes of the descriptor again, but for what no read tells apart: the reserved bytes, and numbers
that are not assigned (`Type2.normalized`). Bytes behind the last record are not read at all
(`Type2.rebuilds`).
-/

namespace FrameIndex

/-! ## Numbers that are not assigned -/

namespace LinkFraming

def assigned (n : Nat) : Bool := [ether, llc, snap, novellRaw, isl, other].any (·.code == n)

theorem code_ofCode (n : Nat) : (ofCode n).code = if assigned n then n else 255 := by
  unfold ofCode
  split
  case h_6 => grind [assigned, code]
  all_goals rfl

end LinkFraming

namespace FlowHashType

def assigned (n : Nat) : Bool := [none, tuple2, tuple3, tuple5, tuple5Sorted, mac].any (·.code == n)

theorem code_ofCode (n : Nat) : (ofCode n).code = if assigned n then n else 0 := by
  unfold ofCode
  split
  case h_6 => grind [assigned, code]
  all_goals rfl

end FlowHashType

namespace Type2

/-! ## Records -/

theorem length_records_le {bs : Bytes} (h : check bs = .ok ()) :
    8 * recordCount bs ≤ (bs.drop headerSize).length := by
  obtain ⟨-, -, hsize, -⟩ := check_eq_ok_iff.1 h
  rw [List.length_drop]
  simp only [sizeFor] at hsize
  omega

theorem take_sizeFor {bs : Bytes} (h : check bs = .ok ()) :
    bs.take (sizeFor (recordCount bs)) =
      bs.take headerSize ++ (records bs).flatMap HeaderRecord.encode := by
  rw [records, flatMap_encode_readRecords (length_records_le h), sizeFor, List.take_add]

/-! ## The header region -/

theorem take_headerSize {bs : Bytes} (h : headerSize ≤ bs.length) :
    bs.take headerSize =
      Bytes.toLE 8 (timestamp bs) ++ Bytes.toLE 2 (captureLength bs) ++
      Bytes.toLE 2 (wireLength bs) ++
      [UInt8.ofNat (rxPort bs), UInt8.ofNat (txPort bs), UInt8.ofNat (bs.byteAt 14),
        UInt8.ofNat (color bs)] ++
      Bytes.toLE 2 (bs.le 16 2) ++ [UInt8.ofNat (bs.byteAt 18), UInt8.ofNat (bs.byteAt 19)] ++
      Bytes.toLE 4 (hashWord bs) ++ Bytes.toLE 4 (presence bs) := by
  have hlength : 28 ≤ bs.length := h
  have hcut : bs.take (8 + 2 + 2 + 1 + 1 + 1 + 1 + 2 + 1 + 1 + 4 + 4) =
      bs.slice 0 8 ++ bs.slice 8 2 ++ bs.slice 10 2 ++ bs.slice 12 1 ++ bs.slice 13 1 ++
      bs.slice 14 1 ++ bs.slice 15 1 ++ bs.slice 16 2 ++ bs.slice 18 1 ++ bs.slice 19 1 ++
      bs.slice 20 4 ++ bs.slice 24 4 := by
    simp only [List.take_add]
    rfl
  simp (disch := omega) only [timestamp, captureLength, wireLength, presence, rxPort, txPort, color,
    hashWord, Bytes.toLE_le]
  refine (show bs.take headerSize = _ from hcut).trans ?_
  simp (disch := omega) only [Bytes.slice_one, List.append_assoc, List.cons_append, List.nil_append]

theorem hashWord_div (bs : Bytes) : hashWord bs / 16777216 = bs.byteAt 23 := by
  have hlow : bs.le 20 3 < 16777216 := bs.le_lt 20 3
  have hword : hashWord bs = bs.le 20 3 + 16777216 * bs.le 23 1 := bs.le_add 20 3 1
  rw [bs.byteAt_eq_le]
  omega

/-! ## The draft of a descriptor -/

def draftOf (bs : Bytes) : Draft where
  captureLength := UInt16.ofNat (captureLength bs)
  wireLength := some (UInt16.ofNat (wireLength bs))
  timestamp := UInt64.ofNat (timestamp bs)
  rxPort := UInt8.ofNat (rxPort bs)
  txPort := UInt8.ofNat (txPort bs)
  framing := framing bs
  color := UInt8.ofNat (color bs)
  flags := UInt16.ofNat (flags bs)
  hashType := hashType bs
  hash24 := UInt32.ofNat (hash24 bs)
  presence := some (UInt32.ofNat (presence bs))
  records := records bs

section

variable (bs : Bytes)

theorem toNat_timestamp_draftOf : (draftOf bs).timestamp.toNat = timestamp bs :=
  UInt64.toNat_ofNat_of_lt' (bs.le_lt 0 8)

theorem toNat_captureLength_draftOf : (draftOf bs).captureLength.toNat = captureLength bs :=
  UInt16.toNat_ofNat_of_lt' (bs.le_lt 8 2)

theorem wireBytes_draftOf : (draftOf bs).wireBytes = wireLength bs :=
  UInt16.toNat_ofNat_of_lt' (bs.le_lt 10 2)

theorem presenceBits_draftOf : (draftOf bs).presenceBits = presence bs :=
  UInt32.toNat_ofNat_of_lt' (bs.le_lt 24 4)

theorem flagsWord_draftOf : (draftOf bs).flagsWord = bs.le 16 2 := by
  have hflags : (draftOf bs).flags.toNat = flags bs := by
    refine UInt16.toNat_ofNat_of_lt' (Nat.lt_trans (Nat.mod_lt _ ?_) ?_) <;> decide
  have hcount : (draftOf bs).records.length = recordCount bs := length_records bs
  rw [Draft.flagsWord, hflags, hcount, flags, recordCount]
  omega

theorem hashWord_draftOf :
    (draftOf bs).hashWord = (hashType bs).code * 16777216 + hashWord bs % 16777216 := by
  have hlow : (draftOf bs).hash24.toNat = hash24 bs := by
    refine UInt32.toNat_ofNat_of_lt' (Nat.lt_trans (Nat.mod_lt _ ?_) ?_) <;> decide
  rw [Draft.hashWord, hlow, hash24, Nat.mod_mod]
  rfl

end

/-- The bytes that a descriptor gives a meaning to, as a draft writes them: the reserved bytes are
0, a number that is not that of a framing is 255, and one that is not that of a type of flow hash 0.
-/
def normalized (bs : Bytes) : Bytes :=
  let framing := if LinkFraming.assigned (bs.byteAt 14) then bs.byteAt 14 else 255
  let hash := if FlowHashType.assigned (bs.byteAt 23) then bs.byteAt 23 else 0
  ((((bs.take (sizeFor (recordCount bs))).set 14 (UInt8.ofNat framing)).set 18 0).set 19 0).set 23
    (UInt8.ofNat hash)

theorem toLE_hashWord (n : Nat) :
    Bytes.toLE 4 n = Bytes.toLE 3 n ++ [UInt8.ofNat (n / 16777216)] :=
  Bytes.toLE_add 3 1 n

theorem toLE_hashWord_draftOf (bs : Bytes) :
    Bytes.toLE 4 (draftOf bs).hashWord =
      Bytes.toLE 3 (hashWord bs) ++ [UInt8.ofNat (hashType bs).code] := by
  have hlow : (draftOf bs).hashWord % Bytes.limit 3 = hashWord bs % Bytes.limit 3 := by
    rw [hashWord_draftOf]
    show (_ + hashWord bs % 16777216) % 16777216 = hashWord bs % 16777216
    omega
  have hhigh : (draftOf bs).hashWord / 16777216 = (hashType bs).code := by
    rw [hashWord_draftOf]
    omega
  rw [toLE_hashWord, hhigh, ← Bytes.toLE_mod_limit, hlow, Bytes.toLE_mod_limit]

/-- The draft of a descriptor writes its bytes again. -/
theorem encode_draftOf {bs : Bytes} (h : check bs = .ok ()) :
    (draftOf bs).encode = normalized bs := by
  obtain ⟨hheader, -⟩ := check_eq_ok_iff.1 h
  have hframing : (draftOf bs).framing.code =
      if LinkFraming.assigned (bs.byteAt 14) then bs.byteAt 14 else 255 :=
    LinkFraming.code_ofCode _
  have htype : (hashType bs).code =
      if FlowHashType.assigned (bs.byteAt 23) then bs.byteAt 23 else 0 := by
    rw [hashType, FlowHashType.code_ofCode, hashWord_div]
  rw [normalized, take_sizeFor h, take_headerSize hheader, toLE_hashWord (hashWord bs),
    Draft.encode, Draft.encodeHeader, toNat_timestamp_draftOf, toNat_captureLength_draftOf,
    wireBytes_draftOf, flagsWord_draftOf, presenceBits_draftOf, toLE_hashWord_draftOf, hframing,
    htype]
  -- each byte that is set stands at the head of what is left behind the fields in front of it
  simp only [List.append_assoc, List.cons_append, List.nil_append, Bytes.length_toLE,
    List.set_append_right, Nat.reduceLeDiff, Nat.reduceSub, List.set_cons_succ, List.set_cons_zero,
    Nat.le_refl, Nat.sub_self, List.append_cancel_left_eq, List.cons.injEq, true_and]
  exact ⟨rfl, rfl, rfl, rfl⟩

/-! ## Putting a descriptor together again -/

namespace Draft

def Call.ofRecord (r : HeaderRecord) : Call := .push r.id r.start r.size

theorem recordOf_self (r : HeaderRecord) : recordOf r.id r.start r.size = r := by
  rw [recordOf, HeaderRecord.start, HeaderRecord.size, UInt16.ofNat_toNat, UInt16.ofNat_toNat]

variable {d : Draft}

theorem run_map_ofRecord {records : List HeaderRecord}
    (h : Sound (some maxRecords) { d with records := d.records ++ records }) :
    (d.run (records.map Call.ofRecord)).1 = { d with records := d.records ++ records } ∧
    ∀ e ∈ (d.run (records.map Call.ofRecord)).2, ∃ answer, e.2 = .ok answer := by
  induction records generalizing d with
  | nil =>
    rw [List.append_nil]
    exact ⟨rfl, List.forall_mem_nil _⟩
  | cons r rest ih =>
    have htakes : d.Takes (some maxRecords) r.id r.start r.size := by
      refine ⟨fun n hn => ?_, h.within r (List.mem_append_right _ List.mem_cons_self), ?_⟩
      · have hcount := h.count n hn
        simp only [List.length_append, List.length_cons] at hcount
        omega
      · intro hoption hnil
        have hheaded := h.headed r (by simp [hnil])
        rw [hoption] at hheaded
        cases hheaded
    have hcall : d.call (Call.ofRecord r) =
        ({ d with records := d.records ++ [r] }, .ok (some d.records.length)) := by
      rw [Call.ofRecord, call_push_of_takes htakes, recordOf_self]
    have hsame : d.records ++ r :: rest = d.records ++ [r] ++ rest := by
      rw [List.append_assoc, List.singleton_append]
    rw [hsame] at h ⊢
    obtain ⟨hlast, hanswers⟩ := @ih { d with records := d.records ++ [r] } h
    rw [List.map_cons, run, hcall]
    exact ⟨hlast, List.forall_mem_cons.2 ⟨⟨_, rfl⟩, hanswers⟩⟩

theorem run_map_set_append (settings : List Setting) (calls : List Call) :
    (d.run (settings.map Call.set ++ calls)).1 = ((settings.foldl set d).run calls).1 ∧
    ((∀ e ∈ ((settings.foldl set d).run calls).2, ∃ answer, e.2 = .ok answer) →
      ∀ e ∈ (d.run (settings.map Call.set ++ calls)).2, ∃ answer, e.2 = .ok answer) := by
  induction settings generalizing d with
  | nil => exact ⟨rfl, fun h => h⟩
  | cons s rest ih =>
    obtain ⟨hlast, hanswers⟩ := @ih (d.set s)
    exact ⟨hlast, fun h => List.forall_mem_cons.2 ⟨⟨_, rfl⟩, hanswers h⟩⟩

end Draft

/-- The fields of a descriptor but for the capture length, as settings of a draft. -/
def settingsOf (bs : Bytes) : List Draft.Setting := [
  .wireLength (UInt16.ofNat (wireLength bs)),
  .timestamp (UInt64.ofNat (timestamp bs)),
  .rxPort (UInt8.ofNat (rxPort bs)),
  .txPort (UInt8.ofNat (txPort bs)),
  .framing (framing bs),
  .color (UInt8.ofNat (color bs)),
  .flags (UInt16.ofNat (flags bs)),
  .hash (hashType bs) (UInt32.ofNat (hash24 bs)),
  .presence (UInt32.ofNat (presence bs))]

/-- The calls that put everything that is read of a descriptor into a new draft. -/
def rebuilding (bs : Bytes) : List Draft.Call :=
  (settingsOf bs).map .set ++ (records bs).map .ofRecord

theorem sound_draftOf {bs : Bytes} (h : check bs = .ok ())
    (hfirst : ∀ r, (records bs).head? = some r → r.id.isOption = false) :
    (draftOf bs).Sound (some maxRecords) := by
  obtain ⟨-, hcount, -, hwithin⟩ := check_eq_ok_iff.1 h
  constructor
  case count =>
    rintro n ⟨⟩
    exact Nat.le_trans (Nat.le_of_eq (length_records bs)) hcount
  case within =>
    rw [toNat_captureLength_draftOf]
    exact hwithin
  case headed => exact hfirst

theorem run_rebuilding {bs : Bytes} (h : check bs = .ok ())
    (hfirst : ∀ r, (records bs).head? = some r → r.id.isOption = false) :
    let start : Draft := { captureLength := UInt16.ofNat (captureLength bs) }
    (start.run (rebuilding bs)).1 = draftOf bs ∧
    ∀ e ∈ (start.run (rebuilding bs)).2, ∃ answer, e.2 = .ok answer := by
  intro start
  obtain ⟨hlast, hset⟩ := @Draft.run_map_set_append start (settingsOf bs)
    ((records bs).map Draft.Call.ofRecord)
  obtain ⟨hrecords, hanswers⟩ := @Draft.run_map_ofRecord ((settingsOf bs).foldl Draft.set start)
    (records bs) (sound_draftOf h hfirst)
  exact ⟨hlast.trans hrecords, hset hanswers⟩

/-! ## Bytes that are not read -/

/-- Everything that is read of two descriptors with header records is the same. The lookups are told
by the index. -/
structure SameFields (a b : Descriptor) : Prop where
  isBound_eq : a.isBound = b.isBound
  byteSize_eq : a.byteSize = b.byteSize
  index_eq : a.index = b.index
  rxPort_eq : rxPort a.bytes = rxPort b.bytes
  txPort_eq : txPort a.bytes = txPort b.bytes
  framing_eq : framing a.bytes = framing b.bytes
  color_eq : color a.bytes = color b.bytes
  flags_eq : flags a.bytes = flags b.bytes
  recordCount_eq : recordCount a.bytes = recordCount b.bytes
  flowHash_eq : flowHash a.bytes = flowHash b.bytes

/-- The bytes up to the last record, and any others behind them. -/
def keptWith (bs trailing : Bytes) : Bytes := bs.take (sizeFor (recordCount bs)) ++ trailing

section

variable {bs : Bytes} (h : check bs = .ok ()) (trailing : Bytes)

include h

theorem le_keptWith {offset width : Nat} (hfield : offset + width ≤ headerSize) :
    (keptWith bs trailing).le offset width = bs.le offset width := by
  obtain ⟨-, -, hsize, -⟩ := check_eq_ok_iff.1 h
  have hkept : headerSize ≤ sizeFor (recordCount bs) := Nat.le_add_right _ _
  rw [keptWith, Bytes.le, Bytes.le, Bytes.slice_append_left, Bytes.slice_take]
  · omega
  · rw [List.length_take]
    omega

theorem byteAt_keptWith {index : Nat} (hindex : index < headerSize) :
    (keptWith bs trailing).byteAt index = bs.byteAt index := by
  rw [Bytes.byteAt_eq_le, Bytes.byteAt_eq_le, le_keptWith h trailing hindex]

theorem recordCount_keptWith : recordCount (keptWith bs trailing) = recordCount bs := by
  rw [recordCount, recordCount, le_keptWith h trailing (by decide)]

theorem records_keptWith : records (keptWith bs trailing) = records bs := by
  have hrest := length_records_le h
  have hlength : 8 * recordCount bs ≤ ((bs.drop headerSize).take (8 * recordCount bs)).length := by
    rw [List.length_take]
    omega
  have hkept : (keptWith bs trailing).drop headerSize =
      (bs.drop headerSize).take (8 * recordCount bs) ++ trailing := by
    rw [keptWith, List.drop_append_of_le_length, List.drop_take, sizeFor, Nat.add_sub_cancel_left]
    rw [List.length_drop] at hrest
    rw [List.length_take, sizeFor]
    obtain ⟨hheader, -⟩ := check_eq_ok_iff.1 h
    omega
  rw [records, recordCount_keptWith h, hkept, readRecords_append hlength,
    readRecords_take, records]

theorem check_keptWith : check (keptWith bs trailing) = .ok () := by
  obtain ⟨hheader, hcount, hsize, hwithin⟩ := check_eq_ok_iff.1 h
  have hcapture : captureLength (keptWith bs trailing) = captureLength bs :=
    le_keptWith h trailing (by decide)
  have hlength : sizeFor (recordCount bs) ≤ (keptWith bs trailing).length := by
    rw [keptWith, List.length_append, List.length_take]
    omega
  rw [check_eq_ok_iff, recordCount_keptWith h, records_keptWith h, hcapture]
  exact ⟨Nat.le_trans (Nat.le_add_right _ _) hlength, hcount, hlength, hwithin⟩

/-- Bytes behind the last record change nothing that is read. -/
theorem sameFields_keptWith {a b : Descriptor}
    (ha : (Descriptor.unbound .type2).bind (keptWith bs trailing) = .ok a)
    (hb : (Descriptor.unbound .type2).bind bs = .ok b) : SameFields a b := by
  obtain ⟨layout, image, accepted⟩ := a
  obtain ⟨layout', image', accepted'⟩ := b
  obtain ⟨-, rfl, rfl⟩ := Descriptor.ofBytes_eq_ok_iff.1 ha
  obtain ⟨-, rfl, rfl⟩ := Descriptor.ofBytes_eq_ok_iff.1 hb
  have hle : ∀ {offset width : Nat}, offset + width ≤ headerSize →
      (keptWith bs trailing).le offset width = bs.le offset width := le_keptWith h trailing
  have hbyte : ∀ {index : Nat}, index < headerSize →
      (keptWith bs trailing).byteAt index = bs.byteAt index := byteAt_keptWith h trailing
  constructor
  case isBound_eq => rfl
  case byteSize_eq => exact congrArg sizeFor (recordCount_keptWith h trailing)
  case index_eq =>
    show Descriptor.indexOf .type2 (keptWith bs trailing) = Descriptor.indexOf .type2 bs
    simp (disch := decide) only [Descriptor.indexOf, captureLength, wireLength, timestamp, presence,
      hle, records_keptWith h]
  case rxPort_eq => exact hbyte (by decide)
  case txPort_eq => exact hbyte (by decide)
  case framing_eq => exact congrArg LinkFraming.ofCode (hbyte (by decide))
  case color_eq => exact hbyte (by decide)
  case flags_eq => exact congrArg (· % 2048) (hle (by decide))
  case recordCount_eq => exact recordCount_keptWith h trailing
  case flowHash_eq =>
    have hword : hashWord (keptWith bs trailing) = hashWord bs := hle (by decide)
    show flowHash (keptWith bs trailing) = flowHash bs
    rw [flowHash, flowHash, hash24, hash24, hashType, hashType, hword]

end

/-- **A descriptor is rebuilt from what is read of it.** Put into a new draft, with the presence
bits set to those that are read, the fields and the records of an accepted descriptor are all taken,
unless the first record is an option, and encoded as the bytes of the descriptor, normalized.
Nothing that is read of it depends on the bytes behind its last record. -/
theorem rebuilds {bs : Bytes} {b : Descriptor}
    (hbind : (Descriptor.unbound .type2).bind bs = .ok b) :
    ((∀ r, b.index.records.head? = some r → r.id.isOption = false) →
      let start : Draft := { captureLength := UInt16.ofNat b.index.captureLength }
      (∀ e ∈ (start.run (rebuilding b.bytes)).2, ∃ answer, e.2 = .ok answer) ∧
      (start.run (rebuilding b.bytes)).1.encode = normalized bs) ∧
    ∀ trailing, ∃ a,
      (Descriptor.unbound .type2).bind (bs.take b.byteSize ++ trailing) = .ok a ∧
        SameFields a b := by
  obtain ⟨layout, image, accepted⟩ := b
  obtain ⟨hcheck, rfl, rfl⟩ := Descriptor.ofBytes_eq_ok_iff.1 hbind
  have hcheck : check bs = .ok () := hcheck
  refine ⟨fun hfirst => ?_, fun trailing => ?_⟩
  · obtain ⟨hlast, hanswers⟩ := run_rebuilding hcheck hfirst
    refine ⟨hanswers, ?_⟩
    rw [← encode_draftOf hcheck]
    exact congrArg Draft.encode hlast
  · have hkept : check (keptWith bs trailing) = .ok () := check_keptWith hcheck trailing
    refine ⟨⟨.type2, some (keptWith bs trailing), fun _ hb => Option.some.inj hb ▸ hkept⟩, ?_, ?_⟩
    · exact Descriptor.ofBytes_eq_ok_iff.2 ⟨hkept, rfl, rfl⟩
    · exact sameFields_keptWith hcheck trailing
        (Descriptor.ofBytes_eq_ok_iff.2 ⟨hkept, rfl, rfl⟩) hbind

/-- Bytes of a descriptor with two records. Its framing and the type of its flow hash are not
assigned, its reserved bytes are not 0, and there are bytes behind the records. -/
def unassignedBytes : Bytes :=
  [1, 2, 3, 4, 5, 6, 7, 8, 60, 0, 64, 0, 3, 4, 7, 9, 42, 16, 222, 173, 17, 34, 51, 200, 16, 0, 0, 128] ++
  HeaderRecord.encode ⟨.ipv4, 0, 24⟩ ++ HeaderRecord.encode ⟨.ipv4Option 20, 20, 4⟩ ++ [5, 5, 5]

def unassignedDescriptor : Descriptor where
  layout := .type2
  image := some unassignedBytes
  accepted := by
    rintro bs ⟨⟩
    exact check_eq_ok_iff.2 (by decide +kernel)

theorem rebuilds_unassigned :
    (Descriptor.unbound .type2).bind unassignedBytes = .ok unassignedDescriptor ∧
    (∀ r, unassignedDescriptor.index.records.head? = some r → r.id.isOption = false) ∧
    (Draft.run { captureLength := 60 } (rebuilding unassignedBytes)).1.encode =
      [1, 2, 3, 4, 5, 6, 7, 8, 60, 0, 64, 0, 3, 4, 255, 9, 42, 16, 0, 0, 17, 34, 51, 0, 16, 0, 0,
        128] ++
      HeaderRecord.encode ⟨.ipv4, 0, 24⟩ ++ HeaderRecord.encode ⟨.ipv4Option 20, 20, 4⟩ ∧
    ∃ a, (Descriptor.unbound .type2).bind (unassignedBytes.take 44 ++ [7]) = .ok a ∧
      SameFields a unassignedDescriptor := by
  have hbind : (Descriptor.unbound .type2).bind unassignedBytes = .ok unassignedDescriptor :=
    Descriptor.ofBytes_eq_ok_iff.2 ⟨unassignedDescriptor.accepted _ rfl, rfl, rfl⟩
  have hfirst : ∀ r, unassignedDescriptor.index.records.head? = some r → r.id.isOption = false := by
    decide +kernel
  have hcapture : UInt16.ofNat unassignedDescriptor.index.captureLength = 60 := by decide +kernel
  have hsize : unassignedDescriptor.byteSize = 44 := by decide +kernel
  obtain ⟨hrebuilt, htrailing⟩ := rebuilds hbind
  obtain ⟨-, hencoded⟩ := hrebuilt hfirst
  rw [hcapture] at hencoded
  rw [hsize] at htrailing
  refine ⟨hbind, hfirst, hencoded.trans ?_, htrailing [7]⟩
  decide +kernel

end Type2

end FrameIndex
