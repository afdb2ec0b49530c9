import FrameIndex.Descriptor
import FrameIndex.Proofs.Fields
import FrameIndex.Proofs.Type2.Acceptance
import FrameIndex.Proofs.Type2.Drafting

/-!
# A draft reads back as it was put together

What a sound draft encodes is accepted (`Type2.check_encode`), and every field of it is read from
where it was written. With the run of calls that put the draft together this says what a
descriptor reads: the fields as they were set last, and the records that were accepted
(`Type2.encode_reads_back`).
-/

namespace FrameIndex

theorem LinkFraming.ofCode_code (f : LinkFraming) : ofCode f.code = f := by cases f <;> rfl

theorem LinkFraming.code_lt (f : LinkFraming) : f.code < 256 := by cases f <;> decide

theorem FlowHashType.ofCode_code (t : FlowHashType) : ofCode t.code = t := by cases t <;> rfl

theorem FlowHashType.code_lt (t : FlowHashType) : t.code < 256 := by cases t <;> decide

theorem classesOf_lt (records : List HeaderRecord) : classesOf records < 2097152 := by
  suffices h : ∀ presence, presence < 2097152 →
      records.foldl (fun presence r => presence ||| r.id.classes.val) presence < 2097152 from
    h 0 (by decide)
  induction records with
  | nil =>
    intro presence h
    exact h
  | cons r rest ih =>
    intro presence h
    exact ih _ (@Nat.or_lt_two_pow presence r.id.classes.val 21 h r.id.classes.isLt)

namespace Type2

/-! ## The fields of an encoded draft -/

section

variable (d : Draft)

@[simp] theorem length_encodeHeader : d.encodeHeader.length = headerSize := by
  simp [Draft.encodeHeader, headerSize]

theorem length_encode : d.encode.length = sizeFor d.records.length := by
  have hrecords : ∀ records : List HeaderRecord,
      (records.flatMap HeaderRecord.encode).length = 8 * records.length := by
    intro records
    induction records with
    | nil => rfl
    | cons r rest ih =>
      simp only [List.flatMap_cons, List.length_append, HeaderRecord.length_encode, ih,
        List.length_cons]
      omega
  rw [Draft.encode, List.length_append, hrecords, length_encodeHeader, sizeFor]

theorem timestamp_encode : timestamp d.encode = d.timestamp.toNat := by
  simp [timestamp, Draft.encode, Draft.encodeHeader, Bytes.limit]

theorem captureLength_encode : captureLength d.encode = d.captureLength.toNat := by
  simp [captureLength, Draft.encode, Draft.encodeHeader, Bytes.limit]

theorem wireLength_encode : wireLength d.encode = d.wireBytes := by
  simp [wireLength, Draft.encode, Draft.encodeHeader, Bytes.limit, Draft.wireBytes]

theorem rxPort_encode : rxPort d.encode = d.rxPort.toNat := by
  simp [rxPort, Draft.encode, Draft.encodeHeader]

theorem txPort_encode : txPort d.encode = d.txPort.toNat := by
  simp [txPort, Draft.encode, Draft.encodeHeader]

theorem framing_encode : framing d.encode = d.framing := by
  simp [framing, Draft.encode, Draft.encodeHeader, Nat.mod_eq_of_lt (LinkFraming.code_lt _),
    LinkFraming.ofCode_code]

theorem color_encode : color d.encode = d.color.toNat := by
  simp [color, Draft.encode, Draft.encodeHeader]

theorem flagsWord_encode : d.encode.le 16 2 = d.flagsWord % 65536 := by
  simp [Draft.encode, Draft.encodeHeader, Bytes.limit]

theorem flags_encode : flags d.encode = d.flags.toNat % 2048 := by
  rw [flags, flagsWord_encode, Draft.flagsWord]
  omega

theorem hashWord_encode : hashWord d.encode = d.hashWord := by
  have hlt : d.hashWord < 4294967296 := by
    have := d.hashType.code_lt
    rw [Draft.hashWord]
    omega
  simp [hashWord, Draft.encode, Draft.encodeHeader, Bytes.limit, hlt]

theorem hash24_encode : hash24 d.encode = d.hash24.toNat % 16777216 := by
  rw [hash24, hashWord_encode, Draft.hashWord]
  omega

theorem hashType_encode : hashType d.encode = d.hashType := by
  have hword : d.hashWord / 16777216 = d.hashType.code := by
    rw [Draft.hashWord]
    omega
  rw [hashType, hashWord_encode, hword, FlowHashType.ofCode_code]

theorem presence_encode : presence d.encode = d.presenceBits := by
  have hlt : d.presenceBits < 4294967296 := by
    rw [Draft.presenceBits]
    cases d.presence with
    | none => exact Nat.lt_trans (classesOf_lt d.records) (by decide)
    | some n => exact n.toNat_lt
  simp [presence, Draft.encode, Draft.encodeHeader, Bytes.limit, hlt]

end

/-! ## The records of an encoded draft -/

theorem readRecords_encode (records : List HeaderRecord) :
    readRecords records.length (records.flatMap HeaderRecord.encode) = records := by
  induction records with
  | nil => rfl
  | cons r rest ih =>
    have hdrop : (r.encode ++ rest.flatMap HeaderRecord.encode).drop 8 =
        rest.flatMap HeaderRecord.encode :=
      List.drop_left' r.length_encode
    simp only [List.length_cons, List.flatMap_cons, readRecords, HeaderRecord.decode_encode, hdrop,
      ih]

variable {d : Draft}

/-- The count shares its word with the flags. It is read back as long as it fits in five bits. -/
theorem recordCount_encode (h : d.records.length < 32) :
    recordCount d.encode = d.records.length := by
  rw [recordCount, flagsWord_encode, Draft.flagsWord]
  omega

theorem records_encode (h : d.records.length < 32) : records d.encode = d.records := by
  have hdrop : d.encode.drop headerSize = d.records.flatMap HeaderRecord.encode :=
    List.drop_left' (length_encodeHeader d)
  rw [records, recordCount_encode h, hdrop, readRecords_encode]

theorem check_encode (h : d.Sound (some maxRecords)) : check d.encode = .ok () := by
  have hcount : d.records.length ≤ maxRecords := h.count _ rfl
  have hfits : d.records.length < 32 := Nat.lt_of_le_of_lt hcount (by decide)
  rw [check_eq_ok_iff, recordCount_encode hfits, records_encode hfits, captureLength_encode,
    length_encode]
  refine ⟨?_, hcount, Nat.le_refl _, h.within⟩
  simp only [sizeFor]
  omega

/-- A descriptor that reads the metadata of a draft, and records that were put in. -/
structure Reads (b : Descriptor) (m : Draft) (entries : List (HeaderId × Nat × Nat)) : Prop where
  isBound_eq : b.isBound = true
  captureLength_eq : b.index.captureLength = m.captureLength.toNat
  wireLength_eq : b.index.wireLength = (m.wireLength.getD m.captureLength).toNat
  timestamp_eq : b.index.timestamp = m.timestamp.toNat
  rxPort_eq : rxPort b.bytes = m.rxPort.toNat
  txPort_eq : txPort b.bytes = m.txPort.toNat
  framing_eq : framing b.bytes = m.framing
  color_eq : color b.bytes = m.color.toNat
  flags_eq : flags b.bytes = m.flags.toNat % 2048
  hashType_eq : hashType b.bytes = m.hashType
  hash24_eq : hash24 b.bytes = m.hash24.toNat % 16777216
  /-- The presence bits are the classes of the records unless they are set. -/
  presence_eq : b.index.presence = (m.presence.map (·.toNat)).getD (classesOf b.index.records)
  records_eq : b.index.records.map Draft.entry = entries

theorem reads_encode (h : d.Sound (some maxRecords)) :
    ∃ b, (Descriptor.unbound .type2).bind d.encode = .ok b ∧
      Reads b d (d.records.map Draft.entry) := by
  have hfits : d.records.length < 32 := Nat.lt_of_le_of_lt (h.count _ rfl) (by decide)
  refine ⟨⟨.type2, some d.encode, fun _ hb => Option.some.inj hb ▸ check_encode h⟩,
    Descriptor.ofBytes_eq_ok_iff.2 ⟨check_encode h, rfl, rfl⟩, ?_⟩
  constructor
  case isBound_eq => rfl
  case captureLength_eq => exact captureLength_encode d
  case wireLength_eq => exact wireLength_encode d
  case timestamp_eq => exact timestamp_encode d
  case rxPort_eq => exact rxPort_encode d
  case txPort_eq => exact txPort_encode d
  case framing_eq => exact framing_encode d
  case color_eq => exact color_encode d
  case flags_eq => exact flags_encode d
  case hashType_eq => exact hashType_encode d
  case hash24_eq => exact hash24_encode d
  case presence_eq =>
    show presence d.encode = (d.presence.map (·.toNat)).getD (classesOf (records d.encode))
    rw [presence_encode, records_encode hfits, Draft.presenceBits]
  case records_eq =>
    show (records d.encode).map Draft.entry = _
    rw [records_encode hfits]

theorem Reads.of_reset_eq {b : Descriptor} {m : Draft} {entries : List (HeaderId × Nat × Nat)}
    (h : Reads b d entries) (hm : d.reset = m) : Reads b m entries := by
  subst hm
  exact ⟨h.1, h.2, h.3, h.4, h.5, h.6, h.7, h.8, h.9, h.10, h.11, h.12, h.13⟩

/-- **Drafts read back.** After any run of calls on a new draft: a push is taken exactly if the
draft takes the record, and otherwise changes nothing; the draft holds at most sixteen records, each
within the captured bytes, and no option in front; and what it encodes is bound and reads back the
fields as they were set last and the accepted records in their order. -/
theorem encode_reads_back (captureLength : UInt16) (calls : List Draft.Call) :
    let d := (Draft.run { captureLength } calls).1
    let log := (Draft.run { captureLength } calls).2
    (∀ id offset length,
      (d.Takes (some maxRecords) id offset length →
        d.call (.push id offset length) =
          ({ d with records := d.records ++ [Draft.recordOf id offset length] },
            .ok (some d.records.length))) ∧
      (¬ d.Takes (some maxRecords) id offset length →
        ∃ refusal, d.call (.push id offset length) = (d, .error refusal))) ∧
    d.records.length ≤ 16 ∧
    (∀ r ∈ d.records, r.stop ≤ captureLength.toNat) ∧
    (∀ r, d.records.head? = some r → r.id.isOption = false) ∧
    ∃ b, (Descriptor.unbound .type2).bind d.encode = .ok b ∧
      Reads b (Draft.metadata captureLength calls) (Draft.puts log) := by
  intro d log
  have hsound : d.Sound (some maxRecords) := (Draft.sound_of_records_eq_nil rfl).run calls
  have hmetadata : d.reset = Draft.metadata captureLength calls := Draft.reset_run _ calls
  have hcapture : d.captureLength = captureLength :=
    (congrArg Draft.captureLength hmetadata).trans (Draft.captureLength_metadata _ calls)
  obtain ⟨b, hb, hreads⟩ := reads_encode hsound
  refine ⟨fun id offset length => ⟨Draft.call_push_of_takes, Draft.call_push_of_not_takes⟩,
    hsound.count _ rfl, hcapture ▸ hsound.within, hsound.headed, b, hb, ?_⟩
  have hrecords : d.records.map Draft.entry = Draft.puts log := Draft.map_entry_run _ calls
  exact hrecords ▸ hreads.of_reset_eq hmetadata

end Type2

end FrameIndex
