import FrameIndex.Type2

/-!
# Which byte strings have the layout with header records

A byte string is checked for one condition after the other (`Type2.check_eq`). It is accepted
exactly if it holds a whole header region, states at most sixteen records, holds all of them, and
each ends within the captured bytes (`Type2.check_eq_ok_iff`).
-/

namespace FrameIndex

theorem Layout.requireLength_eq_ok_iff {layout : Layout} {bs : Bytes} {needed : Nat} :
    layout.requireLength bs needed = .ok () ↔ needed ≤ bs.length := by
  simp [Layout.requireLength]

namespace Type2

theorem overrun?_eq_none_iff {captureLength index : Nat} {records : List HeaderRecord} :
    overrun? captureLength index records = none ↔ ∀ r ∈ records, r.stop ≤ captureLength := by
  induction records generalizing index with
  | nil => simp [overrun?]
  | cons r rest ih =>
    rw [overrun?]
    split
    · simp only [reduceCtorEq, List.forall_mem_cons, false_iff, not_and]
      omega
    · rw [ih, List.forall_mem_cons, and_iff_right]
      omega

theorem overrun?_eq_some_iff {captureLength index : Nat} {records : List HeaderRecord}
    {refusal : LayoutError} :
    overrun? captureLength index records = some refusal ↔
      ∃ (i : Nat) (h : i < records.length), captureLength < records[i].stop ∧
        (∀ (j : Nat) (hj : j < i), records[j].stop ≤ captureLength) ∧
        refusal = .recordOutOfBounds (index + i) records[i].stop captureLength := by
  induction records generalizing index with
  | nil => simp [overrun?]
  | cons r rest ih =>
    rw [overrun?]
    split
    case isTrue exceeds =>
      constructor
      · rintro ⟨⟩
        exact ⟨0, Nat.succ_pos _, exceeds, fun j hj => absurd hj (Nat.not_lt_zero j), rfl⟩
      · rintro ⟨i, h, -, first, rfl⟩
        cases i with
        | zero => rfl
        | succ i => exact absurd exceeds (Nat.not_lt.2 (first 0 (Nat.succ_pos i)))
    case isFalse within =>
      rw [ih]
      constructor
      · rintro ⟨i, h, exceeds, first, rfl⟩
        refine ⟨i + 1, Nat.succ_lt_succ h, exceeds, fun j hj => ?_, ?_⟩
        · cases j with
          | zero => exact Nat.le_of_not_lt within
          | succ j => exact first j (Nat.lt_of_succ_lt_succ hj)
        · rw [Nat.add_right_comm]
          rfl
      · rintro ⟨i, h, exceeds, first, rfl⟩
        cases i with
        | zero => exact absurd exceeds within
        | succ i =>
          refine ⟨i, Nat.lt_of_succ_lt_succ h, exceeds,
            fun j hj => first (j + 1) (Nat.succ_lt_succ hj), ?_⟩
          rw [Nat.add_right_comm]
          rfl

theorem check_eq (bs : Bytes) :
    check bs =
      if bs.length < headerSize then .error (.bufferTooShort .type2 headerSize bs.length)
      else if maxRecords < recordCount bs then .error (.tooManyRecords (recordCount bs) maxRecords)
      else if bs.length < sizeFor (recordCount bs) then
        .error (.bufferTooShort .type2 (sizeFor (recordCount bs)) bs.length)
      else
        match overrun? (captureLength bs) 0 (records bs) with
        | some refusal => .error refusal
        | none => .ok () := by
  unfold check Layout.requireLength
  by_cases hregion : bs.length < headerSize
  · rw [if_pos hregion, if_pos hregion]
    rfl
  · rw [if_neg hregion, if_neg hregion]
    by_cases hmany : maxRecords < recordCount bs
    · rw [if_pos hmany, if_pos hmany]
      rfl
    · rw [if_neg hmany, if_neg hmany]
      by_cases hsize : bs.length < sizeFor (recordCount bs)
      · rw [if_pos hsize, if_pos hsize]
        rfl
      · rw [if_neg hsize, if_neg hsize]
        rfl

theorem check_eq_ok_iff {bs : Bytes} :
    check bs = .ok () ↔
      headerSize ≤ bs.length ∧ recordCount bs ≤ maxRecords ∧
      sizeFor (recordCount bs) ≤ bs.length ∧ ∀ r ∈ records bs, r.stop ≤ captureLength bs := by
  rw [check_eq, ← @overrun?_eq_none_iff (captureLength bs) 0]
  split
  case isTrue hregion => simp [Nat.not_le.2 hregion]
  case isFalse hregion =>
  split
  case isTrue hmany => simp [Nat.not_le.2 hmany]
  case isFalse hmany =>
  split
  case isTrue hsize => simp [Nat.not_le.2 hsize]
  case isFalse hsize =>
    have hconditions : headerSize ≤ bs.length ∧ recordCount bs ≤ maxRecords ∧
        sizeFor (recordCount bs) ≤ bs.length := by omega
    cases overrun? (captureLength bs) 0 (records bs) with
    | none => simp [hconditions]
    | some refusal => simp

@[simp] theorem records_nil : records [] = [] := rfl

end Type2

end FrameIndex
