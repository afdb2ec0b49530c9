import FrameIndex.Descriptor
import FrameIndex.Type2.Draft
import FrameIndex.Type2.Memo
import FrameIndex.Proofs.Type2.Acceptance
import FrameIndex.Proofs.Type2.Records

/-!
# Why bytes are refused

A byte string is refused for the first condition of four that it violates (`Type2.Refused`): it is
shorter than the header region, states too many records, does not have them all, or has one that
ends after the captured bytes, and then the first of these is told. There is no other reason, and
one of them is there whenever a byte string is not accepted (`Type2.accepted_or_refused`).

Reads are total, and bytes that are not there read as zero. The checks never depend on that: in
their order, each number is read of bytes that the checks before it have found to be there
(`Type2.checkWithin_eq`).
-/

namespace FrameIndex

theorem Descriptor.map_bind (d : Descriptor) (bs : Bytes) :
    (d.bind bs).map (fun _ => ()) = d.layout.check bs := by
  unfold bind ofBytes
  split <;> rename_i hcheck <;> exact hcheck.symm

/-! ## Reads that fail -/

namespace Bytes

def slice? (bs : Bytes) (offset length : Nat) : Option Bytes :=
  if offset + length ≤ bs.length then some (bs.slice offset length) else none

def le? (bs : Bytes) (offset width : Nat) : Option Nat := (bs.slice? offset width).map ofLE

variable {bs : Bytes} {offset length : Nat}

theorem slice?_eq_some (h : offset + length ≤ bs.length) :
    bs.slice? offset length = some (bs.slice offset length) := if_pos h

theorem le?_eq_some (h : offset + length ≤ bs.length) :
    bs.le? offset length = some (bs.le offset length) := by
  rw [le?, slice?_eq_some h]
  rfl

end Bytes

namespace Type2

/-- The first `count` records of a run that has all their bytes. -/
def readRecords? : Nat → Bytes → Option (List HeaderRecord)
  | 0, _ => some []
  | count + 1, bs => do
    let chunk ← bs.slice? 0 8
    let rest ← readRecords? count (bs.drop 8)
    return HeaderRecord.decode chunk :: rest

theorem readRecords?_eq_some {count : Nat} {bs : Bytes} (h : 8 * count ≤ bs.length) :
    readRecords? count bs = some (readRecords count bs) := by
  induction count generalizing bs with
  | zero => rfl
  | succ count ih =>
    have hrest : 8 * count ≤ (bs.drop 8).length := by
      rw [List.length_drop]
      omega
    have hfirst : HeaderRecord.decode (bs.slice 0 8) = HeaderRecord.decode bs := by
      rw [HeaderRecord.decode, HeaderRecord.decode, Bytes.le, Bytes.le, Bytes.slice_slice (by omega)]
    rw [readRecords?, Bytes.slice?_eq_some (by omega), ih hrest, readRecords, ← hfirst]
    rfl

/-- The given number of records behind the header region, all of whose bytes are there. -/
def records? (count : Nat) (bs : Bytes) : Option (List HeaderRecord) := do
  readRecords? count (← bs.slice? headerSize (8 * count))

theorem records?_eq_some {bs : Bytes} (h : sizeFor (recordCount bs) ≤ bs.length) :
    records? (recordCount bs) bs = some (records bs) := by
  have hlength : 8 * recordCount bs ≤ (bs.slice headerSize (8 * recordCount bs)).length := by
    rw [Bytes.length_slice]
    simp only [sizeFor] at h
    omega
  rw [records?, Bytes.slice?_eq_some h, Option.bind_eq_bind, Option.bind_some,
    readRecords?_eq_some hlength, Bytes.slice, readRecords_take, records]

/-- The checks of the layout in their order, with reads that fail where bytes are missing. -/
def checkWithin (bs : Bytes) : Option (Except LayoutError Unit) :=
  if bs.length < headerSize then some (.error (.bufferTooShort .type2 headerSize bs.length))
  else do
    let count := (← bs.le? 16 2) / 2048
    if maxRecords < count then return .error (.tooManyRecords count maxRecords)
    else if bs.length < sizeFor count then
      return .error (.bufferTooShort .type2 (sizeFor count) bs.length)
    else
      let captureLength ← bs.le? 8 2
      let records ← records? count bs
      match overrun? captureLength 0 records with
      | some refusal => return .error refusal
      | none => return .ok ()

/-! ## The conditions -/

/-- The end of the record at an index, told by the bytes of its offset and of its length. -/
def recordStop (bs : Bytes) (index : Nat) : Nat :=
  bs.le (sizeFor index) 2 + bs.le (sizeFor index + 2) 2

/-- The byte string has a whole header region and all of the records that it states, at most
sixteen, and each ends within the captured bytes. -/
structure Accepted (bs : Bytes) : Prop where
  region : 28 ≤ bs.length
  few : recordCount bs ≤ 16
  complete : 28 + 8 * recordCount bs ≤ bs.length
  within : ∀ index < recordCount bs, recordStop bs index ≤ captureLength bs

/-- The first condition that the byte string violates, and how it is told. -/
inductive Refused (bs : Bytes) : LayoutError → Prop where
  | region (short : bs.length < 28) : Refused bs (.bufferTooShort .type2 28 bs.length)
  | many (region : 28 ≤ bs.length) (exceeds : 16 < recordCount bs) :
      Refused bs (.tooManyRecords (recordCount bs) 16)
  | incomplete (region : 28 ≤ bs.length) (few : recordCount bs ≤ 16)
      (short : bs.length < 28 + 8 * recordCount bs) :
      Refused bs (.bufferTooShort .type2 (28 + 8 * recordCount bs) bs.length)
  | overrun (few : recordCount bs ≤ 16) (complete : 28 + 8 * recordCount bs ≤ bs.length)
      {index : Nat} (stated : index < recordCount bs)
      (exceeds : captureLength bs < recordStop bs index)
      (first : ∀ earlier < index, recordStop bs earlier ≤ captureLength bs) :
      Refused bs (.recordOutOfBounds index (recordStop bs index) (captureLength bs))

theorem recordCount_eq_bits (bs : Bytes) : recordCount bs = bs.le 16 2 >>> 11 &&& 31 := by
  have hlt : bs.le 16 2 < 65536 := bs.le_lt 16 2
  rw [Nat.and_two_pow_sub_one_eq_mod _ 5, Nat.shiftRight_eq_div_pow, recordCount]
  omega

theorem stop_getElem_records {bs : Bytes} {index : Nat} (h : index < (records bs).length) :
    (records bs)[index].stop = recordStop bs index := by
  have hrecord : (records bs)[index] =
      HeaderRecord.decode ((bs.drop headerSize).drop (8 * index)) := by
    refine Option.some.inj ?_
    rw [← List.getElem?_eq_getElem h]
    exact getElem?_readRecords (length_records bs ▸ h) _
  rw [hrecord, HeaderRecord.stop_decode, List.drop_drop, Bytes.le, Bytes.le, Bytes.slice_drop,
    Bytes.slice_drop]
  rfl

theorem accepted_iff {bs : Bytes} : check bs = .ok () ↔ Accepted bs := by
  have hwithin : (∀ r ∈ records bs, r.stop ≤ captureLength bs) ↔
      ∀ index < recordCount bs, recordStop bs index ≤ captureLength bs := by
    rw [List.forall_mem_iff_forall_getElem]
    constructor
    · intro h index hindex
      rw [← length_records] at hindex
      rw [← stop_getElem_records hindex]
      exact h index hindex
    · intro h index hindex
      rw [stop_getElem_records]
      exact h index (length_records bs ▸ hindex)
  rw [check_eq_ok_iff, hwithin]
  exact ⟨fun ⟨region, few, complete, within⟩ => ⟨region, few, complete, within⟩,
    fun ⟨region, few, complete, within⟩ => ⟨region, few, complete, within⟩⟩

/-! ## The answer -/

theorem Refused.check_eq {bs : Bytes} {e : LayoutError} (h : Refused bs e) :
    check bs = .error e := by
  rw [Type2.check_eq]
  cases h with
  | region short => exact if_pos short
  | many region exceeds =>
    have hregion : ¬ bs.length < headerSize := Nat.not_lt.2 region
    rw [if_neg hregion]
    exact if_pos exceeds
  | incomplete region few short =>
    have hregion : ¬ bs.length < headerSize := Nat.not_lt.2 region
    have hmany : ¬ maxRecords < recordCount bs := Nat.not_lt.2 few
    rw [if_neg hregion, if_neg hmany]
    exact if_pos short
  | @overrun few complete index stated exceeds first =>
    have hregion : ¬ bs.length < headerSize := Nat.not_lt.2 (Nat.le_of_add_right_le complete)
    have hmany : ¬ maxRecords < recordCount bs := Nat.not_lt.2 few
    have hsize : ¬ bs.length < sizeFor (recordCount bs) := Nat.not_lt.2 complete
    have hindex : index < (records bs).length := (length_records bs).symm ▸ stated
    have hfirst : overrun? (captureLength bs) 0 (records bs) =
        some (.recordOutOfBounds index (recordStop bs index) (captureLength bs)) := by
      refine overrun?_eq_some_iff.2 ⟨index, hindex, ?_, fun j hj => ?_, ?_⟩
      · rwa [stop_getElem_records]
      · rw [stop_getElem_records]
        exact first j hj
      · rw [stop_getElem_records, Nat.zero_add]
    rw [if_neg hregion, if_neg hmany, if_neg hsize, hfirst]

theorem accepted_or_refused (bs : Bytes) : Accepted bs ∨ ∃ e, Refused bs e := by
  by_cases region : 28 ≤ bs.length
  case neg => exact .inr ⟨_, .region (Nat.lt_of_not_le region)⟩
  by_cases few : recordCount bs ≤ 16
  case neg => exact .inr ⟨_, .many region (Nat.lt_of_not_le few)⟩
  by_cases complete : 28 + 8 * recordCount bs ≤ bs.length
  case neg => exact .inr ⟨_, .incomplete region few (Nat.lt_of_not_le complete)⟩
  cases hoverrun : overrun? (captureLength bs) 0 (records bs) with
  | none =>
    exact .inl (accepted_iff.1 (check_eq_ok_iff.2
      ⟨region, few, complete, overrun?_eq_none_iff.1 hoverrun⟩))
  | some refusal =>
    obtain ⟨index, h, exceeds, first, -⟩ := overrun?_eq_some_iff.1 hoverrun
    refine .inr ⟨_, .overrun few complete (length_records bs ▸ h) ?_ fun j hj => ?_⟩
    · rwa [stop_getElem_records] at exceeds
    · have := first j hj
      rwa [stop_getElem_records] at this

theorem refused_iff {bs : Bytes} {e : LayoutError} : check bs = .error e ↔ Refused bs e := by
  refine ⟨fun h => ?_, Refused.check_eq⟩
  rcases accepted_or_refused bs with haccepted | ⟨e', hrefused⟩
  · rw [accepted_iff.2 haccepted] at h
    cases h
  · rw [hrefused.check_eq] at h
    cases h
    exact hrefused

/-- No check reads bytes that are missing. -/
theorem checkWithin_eq (bs : Bytes) : checkWithin bs = some (check bs) := by
  rw [check_eq, checkWithin]
  by_cases hregion : bs.length < headerSize
  · rw [if_pos hregion, if_pos hregion]
  have hlength : 28 ≤ bs.length := Nat.le_of_not_lt hregion
  have hcount : bs.le? 16 2 = some (bs.le 16 2) := Bytes.le?_eq_some (by omega)
  have hcapture : bs.le? 8 2 = some (captureLength bs) := Bytes.le?_eq_some (by omega)
  rw [if_neg hregion, if_neg hregion, hcount, hcapture, Option.bind_eq_bind, Option.bind_some,
    ← recordCount]
  by_cases hmany : maxRecords < recordCount bs
  · rw [if_pos hmany, if_pos hmany]
    rfl
  rw [if_neg hmany, if_neg hmany]
  by_cases hsize : bs.length < sizeFor (recordCount bs)
  · rw [if_pos hsize, if_pos hsize]
    rfl
  rw [if_neg hsize, if_neg hsize, records?_eq_some (Nat.le_of_not_lt hsize), Option.bind_some,
    Option.bind_eq_bind, Option.bind_some]
  cases overrun? (captureLength bs) 0 (records bs) <;> rfl

/-! ## Binding -/

/-- All that is remembered is read of the bytes. -/
structure Memo.ReadsAs (m : Memo) (bs : Bytes) : Prop where
  image_eq : m.image = some bs
  records_eq : m.records.2 = Type2.records bs
  presence_eq : m.presence.2 = Type2.presence bs
  hash_eq : m.hash.2 = flowHash bs

theorem Memo.Sound.readsAs {m : Memo} {bs : Bytes} (h : m.Sound) (himage : m.image = some bs) :
    m.ReadsAs bs := by
  obtain ⟨hrecords, hpresence, hhash⟩ := h bs himage
  constructor
  case image_eq => exact himage
  case records_eq => simp only [Memo.records, himage, Memo.remembered_eq hrecords]
  case presence_eq => simp only [Memo.presence, himage, Memo.remembered_eq hpresence]
  case hash_eq => simp only [Memo.hash, himage, Memo.remembered_eq hhash]

theorem Memo.snd_bind (m : Memo) (bs : Bytes) : (m.bind bs).2 = check bs := by
  unfold bind
  split <;> rename_i hcheck <;> exact hcheck.symm

theorem Memo.fst_bind_of_accepted (m : Memo) {bs : Bytes} (h : Accepted bs) :
    (m.bind bs).1 = { image := some bs } := by
  rw [bind, accepted_iff.2 h]

theorem Memo.fst_bind_of_refused (m : Memo) {bs : Bytes} {e : LayoutError} (h : Refused bs e) :
    (m.bind bs).1 = m := by
  rw [bind, h.check_eq]

/-- **Bytes are bound, or refused for the first condition that they violate.** A byte string is
bound exactly if it is accepted, whatever is bound before, and refused otherwise with the first of
the conditions that it violates; a record that ends after the captured bytes is the first that does.
No check reads bytes that are missing. What is bound is read from then on. A refusal changes
nothing, so that everything is read as before. Descriptors answer alike. -/
theorem binds_or_refuses (m : Memo) (bs : Bytes) :
    recordCount bs = bs.le 16 2 >>> 11 &&& 31 ∧
    checkWithin bs = some (m.bind bs).2 ∧
    ((m.bind bs).2 = .ok () ↔ Accepted bs) ∧
    (∀ e, (m.bind bs).2 = .error e ↔ Refused bs e) ∧
    (Accepted bs → (m.bind bs).1.ReadsAs bs) ∧
    (∀ e, Refused bs e → (m.bind bs).1 = m ∧
      ∀ old, m.Sound → m.image = some old → (m.bind bs).1.ReadsAs old) ∧
    ∀ d : Descriptor, d.layout = .type2 → (d.bind bs).map (fun _ => ()) = (m.bind bs).2 := by
  rw [m.snd_bind]
  refine ⟨recordCount_eq_bits bs, checkWithin_eq bs, accepted_iff, fun e => refused_iff,
    fun haccepted => ?_, fun e hrefused => ?_, fun d hlayout => ?_⟩
  · rw [m.fst_bind_of_accepted haccepted]
    exact ⟨rfl, rfl, rfl, rfl⟩
  · rw [m.fst_bind_of_refused hrefused]
    exact ⟨rfl, fun old hsound => hsound.readsAs⟩
  · rw [d.map_bind, hlayout]
    rfl

/-- A descriptor of two headers. -/
def twoHeaders : Bytes :=
  Draft.encode { captureLength := 60, records := [⟨.ethernet, 0, 14⟩, ⟨.ipv4, 14, 20⟩] }

/-- The same with fewer captured bytes than the second header takes. -/
def cutShort : Bytes :=
  Draft.encode { captureLength := 30, records := [⟨.ethernet, 0, 14⟩, ⟨.ipv4, 14, 20⟩] }

/-- `binds_or_refuses` for these two, one after the other: the second is refused for its record at
index 1, and the first is still read. -/
theorem binds_or_refuses_cutShort :
    let bound := ((({} : Memo).bind twoHeaders).1.records).1
    Accepted twoHeaders ∧ Refused cutShort (.recordOutOfBounds 1 34 30) ∧
    (bound.bind cutShort).2 = .error (.recordOutOfBounds 1 34 30) ∧
    (bound.bind cutShort).1.ReadsAs twoHeaders := by
  intro bound
  obtain ⟨-, -, haccepted, -⟩ := binds_or_refuses {} twoHeaders
  obtain ⟨-, -, -, hrefused, -, hkept, -⟩ := binds_or_refuses bound cutShort
  have hoverrun : (bound.bind cutShort).2 = .error (.recordOutOfBounds 1 34 30) := rfl
  have hsound : bound.Sound :=
    Memo.sound_records (Memo.sound_bind (Memo.sound_unbind {}) twoHeaders)
  have himage : bound.image = some twoHeaders := by decide +kernel
  exact ⟨haccepted.1 rfl, (hrefused _).1 hoverrun, hoverrun,
    (hkept _ ((hrefused _).1 hoverrun)).2 twoHeaders hsound himage⟩

end Type2

end FrameIndex
