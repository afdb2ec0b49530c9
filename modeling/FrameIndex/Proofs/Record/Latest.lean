import FrameIndex.Record

/-!
# What the last of several records says

Some records say something, others do not. Of those that do, the last one counts (`latest?`): no
record behind it says anything (`exists_of_latest?_eq_some`).
-/

namespace FrameIndex

namespace HeaderRecord

/-- What the last record says that says anything. -/
def latest? {α : Type} (tell : HeaderRecord → Option α) (records : List HeaderRecord) : Option α :=
  records.reverse.findSome? tell

section

variable {α : Type} {tell : HeaderRecord → Option α} {records : List HeaderRecord}

theorem latest?_append (front behind : List HeaderRecord) :
    latest? tell (front ++ behind) = (latest? tell behind).or (latest? tell front) := by
  rw [latest?, List.reverse_append, List.findSome?_append]
  rfl

theorem latest?_concat (front : List HeaderRecord) (r : HeaderRecord) :
    latest? tell (front ++ [r]) = (tell r).or (latest? tell front) := by
  rw [latest?_append]
  congr 1
  cases h : tell r <;> simp [latest?, h]

theorem latest?_eq_none_iff : latest? tell records = none ↔ ∀ r ∈ records, tell r = none := by
  simp [latest?]

theorem latest?_append_of_silent {front behind : List HeaderRecord}
    (h : ∀ r ∈ behind, tell r = none) : latest? tell (front ++ behind) = latest? tell front := by
  rw [latest?_append, latest?_eq_none_iff.2 h, Option.none_or]

theorem exists_of_latest?_eq_some {a : α} (h : latest? tell records = some a) :
    ∃ front r behind, records = front ++ r :: behind ∧ tell r = some a ∧
      ∀ later ∈ behind, tell later = none := by
  obtain ⟨behind, r, front, hsplit, htold, hsilent⟩ := List.findSome?_eq_some_iff.1 h
  refine ⟨front.reverse, r, behind.reverse, ?_, htold, fun later hlater => ?_⟩
  · rw [List.reverse_eq_iff.1 hsplit]
    simp
  · exact hsilent later (List.mem_reverse.1 hlater)

end

theorem append_eq_append_cons_cases {α : Type} {first second front behind : List α} {x : α}
    (h : first ++ second = front ++ x :: behind) :
    (∃ rest, first = front ++ x :: rest ∧ behind = rest ++ second) ∨
      ∃ extra, front = first ++ extra ∧ second = extra ++ x :: behind := by
  rcases List.append_eq_append_iff.1 h with ⟨extra, hfront, hsecond⟩ | ⟨extra, hfirst, hbehind⟩
  · exact .inr ⟨extra, hfront, hsecond⟩
  · cases extra with
    | nil => exact .inr ⟨[], by simp [hfirst], hbehind.symm⟩
    | cons y rest =>
      obtain ⟨rfl, hrest⟩ := List.cons.inj hbehind
      exact .inl ⟨rest, hfirst, hrest⟩

end HeaderRecord

end FrameIndex
