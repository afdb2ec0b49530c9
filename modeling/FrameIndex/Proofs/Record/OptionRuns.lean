import FrameIndex.Record.Search

/-!
# Runs of option records

Which option records belong to a record is asked in two ways. A search goes through the records
behind it up to the first that is no option, and answers with the first record for an option
(`option?`); and the whole run of these records is described by its place (`optionRun?`). Both go by
the same records, those that follow without a gap (`InRun`): the search finds exactly the first
record for the option among them (`option?_eq_some_iff`), and these are exactly the records that the
run counts (`inRun_iff_of_optionRun?`).
-/

namespace FrameIndex

namespace HeaderRecord

variable {records : List HeaderRecord} {parent index : Nat} {ext : HeaderId}

/-- The record at an index is one of the option records that follow another without a gap. -/
structure InRun (records : List HeaderRecord) (parent index : Nat) : Prop where
  behind : parent < index
  unbroken : ∀ j, parent < j → j ≤ index → records[j]?.any (·.id.isOption) = true

/-- The record at an index is the first for an option among those that follow another without a
gap. -/
structure FirstOption (records : List HeaderRecord) (parent : Nat) (ext : HeaderId)
    (index : Nat) : Prop where
  inRun : InRun records parent index
  agrees : records[index]?.any (·.id.agrees ext) = true
  first : ∀ j, parent < j → j < index → records[j]?.any (·.id.agrees ext) = false

theorem lt_length_takeWhile_iff {α : Type} {p : α → Bool} {l : List α} {i : Nat} :
    i < (l.takeWhile p).length ↔ ∀ j ≤ i, l[j]?.any p = true := by
  induction l generalizing i with
  | nil =>
    simp only [List.takeWhile_nil, List.length_nil, Nat.not_lt_zero, false_iff]
    intro h
    cases h i (Nat.le_refl i)
  | cons a rest ih =>
    rw [List.takeWhile_cons]
    by_cases ha : p a = true
    · rw [if_pos ha, List.length_cons]
      cases i with
      | zero => simp [ha]
      | succ i =>
        rw [Nat.succ_lt_succ_iff, ih]
        constructor
        · intro h j hj
          cases j with
          | zero => simpa using ha
          | succ j => simpa using h j (Nat.le_of_succ_le_succ hj)
        · intro h j hj
          simpa using h (j + 1) (Nat.succ_le_succ hj)
    · rw [if_neg ha]
      simp only [List.length_nil, Nat.not_lt_zero, false_iff]
      intro h
      exact ha (by simpa using h 0 (Nat.zero_le i))

theorem inRun_iff {i : Nat} :
    InRun records parent (parent + 1 + i) ↔ i < (optionsAfter records parent).length := by
  rw [optionsAfter, lt_length_takeWhile_iff]
  constructor
  · intro h j hj
    rw [List.getElem?_drop]
    exact h.unbroken _ (by omega) (by omega)
  · intro h
    refine ⟨by omega, fun j hparent hj => ?_⟩
    obtain ⟨k, rfl⟩ := Nat.exists_eq_add_of_le hparent
    rw [← List.getElem?_drop]
    exact h k (by omega)

theorem getElem?_optionsAfter {i : Nat} (h : i < (optionsAfter records parent).length) :
    records[parent + 1 + i]? = some (optionsAfter records parent)[i] := by
  have hprefix : optionsAfter records parent <+: records.drop (parent + 1) :=
    List.takeWhile_prefix _
  rw [← List.getElem?_drop]
  exact List.prefix_iff_getElem?.1 hprefix i h

theorem option?_eq_some_iff :
    option? records parent ext = some index ↔ FirstOption records parent ext index := by
  have hsearch : option? records parent ext = some index ↔ ∃ i,
      (optionsAfter records parent).findIdx? (·.id.agrees ext) = some i ∧
        parent + 1 + i = index := Option.map_eq_some_iff
  simp only [hsearch, List.findIdx?_eq_some_iff_getElem]
  constructor
  · rintro ⟨i, ⟨hlt, hagrees, hfirst⟩, rfl⟩
    refine ⟨inRun_iff.2 hlt, ?_, fun j hparent hj => ?_⟩
    · rw [getElem?_optionsAfter hlt]
      exact hagrees
    · obtain ⟨k, rfl⟩ := Nat.exists_eq_add_of_le hparent
      rw [getElem?_optionsAfter (i := k) (by omega)]
      exact Bool.eq_false_iff.2 (hfirst k (by omega))
  · intro h
    obtain ⟨i, rfl⟩ := Nat.exists_eq_add_of_le h.inRun.behind
    have hlt := inRun_iff.1 h.inRun
    refine ⟨i, ⟨hlt, ?_, fun k hk => ?_⟩, rfl⟩
    · have hagrees := h.agrees
      rwa [getElem?_optionsAfter hlt] at hagrees
    · have hfirst := h.first (parent + 1 + k) (by omega) (by omega)
      rw [getElem?_optionsAfter (by omega)] at hfirst
      exact Bool.eq_false_iff.1 hfirst

theorem optionRun?_eq_none_iff :
    optionRun? records parent = none ↔ optionsAfter records parent = [] := by
  unfold optionRun?
  cases optionsAfter records parent <;> simp

theorem place_of_optionRun? {run : OptionRun} (h : optionRun? records parent = some run) :
    run.first = parent + 1 ∧ run.last = parent + 1 + (optionsAfter records parent).length := by
  unfold optionRun? at h
  cases hoptions : optionsAfter records parent with
  | nil =>
    rw [hoptions] at h
    cases h
  | cons head tail =>
    rw [hoptions] at h
    cases h
    exact ⟨rfl, rfl⟩

theorem inRun_iff_of_optionRun? {run : OptionRun} (h : optionRun? records parent = some run) :
    InRun records parent index ↔ run.first ≤ index ∧ index < run.last := by
  obtain ⟨hfirst, hlast⟩ := place_of_optionRun? h
  rw [hfirst, hlast]
  constructor
  · intro hrun
    obtain ⟨i, rfl⟩ := Nat.exists_eq_add_of_le hrun.behind
    have hlt := inRun_iff.1 hrun
    omega
  · rintro ⟨hbehind, hwithin⟩
    obtain ⟨i, rfl⟩ := Nat.exists_eq_add_of_le hbehind
    exact inRun_iff.2 (by omega)

theorem firstOption_iff_of_optionRun? {run : OptionRun}
    (h : optionRun? records parent = some run) :
    FirstOption records parent ext index ↔
      (run.first ≤ index ∧ index < run.last) ∧ records[index]?.any (·.id.agrees ext) = true ∧
        ∀ j, run.first ≤ j → j < index → records[j]?.any (·.id.agrees ext) = false := by
  rw [← inRun_iff_of_optionRun? h, (place_of_optionRun? h).1]
  exact ⟨fun hfirst => ⟨hfirst.inRun, hfirst.agrees, hfirst.first⟩,
    fun ⟨hrun, hagrees, hfirst⟩ => ⟨hrun, hagrees, hfirst⟩⟩

theorem InRun.exists_optionRun? (h : InRun records parent index) :
    ∃ run, optionRun? records parent = some run := by
  obtain ⟨i, rfl⟩ := Nat.exists_eq_add_of_le h.behind
  have hlt := inRun_iff.1 h
  refine Option.ne_none_iff_exists'.1 fun hnone => ?_
  rw [optionRun?_eq_none_iff.1 hnone] at hlt
  exact Nat.not_lt_zero i hlt

end HeaderRecord

end FrameIndex
