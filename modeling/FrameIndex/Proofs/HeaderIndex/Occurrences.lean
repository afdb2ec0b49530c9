import FrameIndex.HeaderIndex

/-!
# Presence bits hide no record

The n-th occurrence of a header is the n-th of the records that agree with it, and its index is the
n-th of their indices (`HeaderRecord.getElem?_occurrence?`, `HeaderRecord.occurrence?_eq`). Presence
bits that are the classes of the records include a class of a header as soon as one of the records
has that class (`showsClass_classesOf`). So a header that has classes in common with each record
that agrees with it is looked up as if there were no presence bits
(`HeaderIndex.recordOf?_of_shown`).
-/

namespace FrameIndex

namespace HeaderRecord

/-! ## Occurrences -/

/-- The records of a header: those that agree with it, in their order. -/
def agreeing (id : HeaderId) (records : List HeaderRecord) : List HeaderRecord :=
  records.filter (·.id.agrees id)

theorem agreeing_cons (id : HeaderId) (r : HeaderRecord) (rest : List HeaderRecord) :
    agreeing id (r :: rest) = if r.id.agrees id then r :: agreeing id rest else agreeing id rest :=
  List.filter_cons

def indicesOf (id : HeaderId) (records : List HeaderRecord) : List Nat :=
  (List.range records.length).filter fun index => records[index]?.any (·.id.agrees id)

theorem mem_indicesOf_iff {id : HeaderId} {records : List HeaderRecord} {index : Nat} :
    index ∈ indicesOf id records ↔ ∃ r, records[index]? = some r ∧ r.id.agrees id = true := by
  rw [indicesOf, List.mem_filter, List.mem_range, Option.any_eq_true]
  refine and_iff_right_of_imp fun ⟨r, hr, _⟩ => ?_
  exact (List.getElem?_eq_some_iff.1 hr).1

theorem pairwise_lt_indicesOf (id : HeaderId) (records : List HeaderRecord) :
    (indicesOf id records).Pairwise (· < ·) :=
  List.pairwise_lt_range.filter _

theorem indicesOf_cons (id : HeaderId) (r : HeaderRecord) (rest : List HeaderRecord) :
    indicesOf id (r :: rest) =
      if r.id.agrees id then 0 :: (indicesOf id rest).map (· + 1)
      else (indicesOf id rest).map (· + 1) := by
  rw [indicesOf, List.length_cons, List.range_succ_eq_map, List.filter_cons, List.filter_map]
  rfl

theorem length_indicesOf (id : HeaderId) (records : List HeaderRecord) :
    (indicesOf id records).length = (agreeing id records).length := by
  induction records with
  | nil => rfl
  | cons r rest ih =>
    rw [indicesOf_cons, agreeing_cons]
    split <;> simp [ih]

theorem occurrence?_eq (id : HeaderId) (records : List HeaderRecord) (depth : Nat) :
    occurrence? id records depth = (indicesOf id records)[depth]? := by
  induction records generalizing depth with
  | nil => rfl
  | cons r rest ih =>
    rw [occurrence?.eq_def, indicesOf_cons]
    simp only
    by_cases hagrees : r.id.agrees id = true
    · rw [if_pos hagrees, if_pos hagrees]
      cases depth with
      | zero => rfl
      | succ depth => rw [List.getElem?_cons_succ, List.getElem?_map, ← ih]
    · rw [if_neg hagrees, if_neg hagrees, List.getElem?_map, ← ih]

theorem getElem?_occurrence? (id : HeaderId) (records : List HeaderRecord) (depth : Nat) :
    ((occurrence? id records depth).bind fun index => records[index]?) =
      (agreeing id records)[depth]? := by
  induction records generalizing depth with
  | nil => rfl
  | cons r rest ih =>
    -- an index into the rest is one less than the index into the whole list
    have hrest : ∀ depth, (((occurrence? id rest depth).map (· + 1)).bind
        fun index => (r :: rest)[index]?) = (agreeing id rest)[depth]? := by
      intro depth
      rw [← ih depth, Option.bind_map]
      rfl
    rw [occurrence?.eq_def, agreeing_cons]
    simp only
    by_cases hagrees : r.id.agrees id = true
    · rw [if_pos hagrees, if_pos hagrees]
      cases depth with
      | zero => rfl
      | succ depth => exact hrest depth
    · rw [if_neg hagrees, if_neg hagrees]
      exact hrest depth

end HeaderRecord

/-! ## Presence -/

def HeaderId.sharesClass (a b : HeaderId) : Bool := a.classes.val &&& b.classes.val != 0

theorem showsClass_or (presence : Nat) (a id : HeaderId) :
    showsClass (presence ||| a.classes.val) id = (showsClass presence id || a.sharesClass id) := by
  unfold showsClass HeaderId.sharesClass
  rw [Nat.and_or_distrib_right, Bool.eq_iff_iff, Bool.or_eq_true, bne_iff_ne, bne_iff_ne,
    bne_iff_ne, ne_eq, Nat.or_eq_zero_iff, Decidable.not_and_iff_not_or_not]

theorem showsClass_classesOf (records : List HeaderRecord) (id : HeaderId) :
    showsClass (classesOf records) id = records.any (·.id.sharesClass id) := by
  suffices h : ∀ presence, showsClass
      (records.foldl (fun presence r => presence ||| r.id.classes.val) presence) id =
        (showsClass presence id || records.any (·.id.sharesClass id)) by
    have hnone : showsClass 0 id = false := by
      rw [showsClass, Nat.zero_and]
      rfl
    rw [classesOf, h, hnone, Bool.false_or]
  induction records with
  | nil =>
    intro presence
    rw [List.any_nil, Bool.or_false]
    rfl
  | cons r rest ih =>
    intro presence
    rw [List.foldl_cons, ih, showsClass_or, List.any_cons, Bool.or_assoc]

/-- The classes of the header do not keep the records of the header from being found. -/
def HeaderId.Shown (id : HeaderId) (records : List HeaderRecord) : Prop :=
  id.hasClass = true → ∀ r ∈ HeaderRecord.agreeing id records, r.id.sharesClass id = true

theorem HeaderId.shown_of_hasClass_eq_false {id : HeaderId} (h : id.hasClass = false)
    (records : List HeaderRecord) : id.Shown records := by
  intro hclass
  rw [h] at hclass
  cases hclass

theorem agreeing_of_rulesOut {id : HeaderId} {records : List HeaderRecord}
    (hshown : id.Shown records) (h : rulesOut (classesOf records) id = true) :
    HeaderRecord.agreeing id records = [] := by
  rw [rulesOut, Bool.and_eq_true, Bool.not_eq_true', showsClass_classesOf] at h
  obtain ⟨hclass, hnone⟩ := h
  refine List.eq_nil_iff_forall_not_mem.2 fun r hr => ?_
  have hshares := hshown hclass r hr
  have hmem : r ∈ records := (List.mem_filter.1 hr).1
  exact List.any_eq_false.1 hnone r hmem hshares

namespace HeaderIndex

variable {ix : HeaderIndex} {id : HeaderId}

theorem recordOf?_of_shown (hpresence : ix.presence = classesOf ix.records)
    (hshown : id.Shown ix.records) (depth : Nat) :
    ix.recordOf? id depth = HeaderRecord.occurrence? id ix.records depth := by
  unfold recordOf?
  by_cases hrules : rulesOut ix.presence id = true
  · -- none of the records is one of the header, so the search finds none either
    rw [hpresence] at hrules
    have hnone : HeaderRecord.indicesOf id ix.records = [] := by
      rw [← List.length_eq_zero_iff, HeaderRecord.length_indicesOf,
        agreeing_of_rulesOut hshown hrules, List.length_nil]
    rw [hpresence, if_pos hrules, HeaderRecord.occurrence?_eq, hnone, List.getElem?_nil]
  · rw [if_neg hrules]

theorem getElem?_recordOf? (hpresence : ix.presence = classesOf ix.records)
    (hshown : id.Shown ix.records) (depth : Nat) :
    ((ix.recordOf? id depth).bind fun index => ix.records[index]?) =
      (HeaderRecord.agreeing id ix.records)[depth]? := by
  rw [recordOf?_of_shown hpresence hshown, HeaderRecord.getElem?_occurrence?]

end HeaderIndex

end FrameIndex
