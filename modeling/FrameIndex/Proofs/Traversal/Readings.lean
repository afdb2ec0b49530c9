import FrameIndex.Proofs.Traversal.Tidiness

/-!
# Which records a traversal makes

The plan at a station says by itself which records are made there and where the next header is; what
was found before does not matter. A step of a traversal makes the records of its plan as far as the
limit allows, so a whole run makes the records of all headers from its first station on
(`Traversal.readings`), cut off at the limit (`Traversal.Arrived.records_run`).
-/

namespace FrameIndex

namespace Traversal

/-- The records of all headers from a station on. -/
def readings (data : Bytes) (s : Station) : List HeaderRecord :=
  match _h : (plan data s).next with
  | none => (plan data s).records
  | some next => (plan data s).records ++ readings data next
  termination_by data.length - s.offset
  decreasing_by
    have := plan_goes _h
    omega

variable {t : Traversal} {limit : Option Nat} {data : Bytes} {s : Station} {stop edge : Nat}

theorem readings_of_next_eq_none (h : (plan data s).next = none) :
    readings data s = (plan data s).records := by
  rw [readings]
  split
  · rfl
  · rename_i hsome
    rw [h] at hsome
    cases hsome

theorem readings_of_next_eq_some {next : Station} (h : (plan data s).next = some next) :
    readings data s = (plan data s).records ++ readings data next := by
  rw [readings]
  split
  · rename_i hnone
    rw [h] at hnone
    cases hnone
  · rename_i hsome
    rw [h] at hsome
    cases hsome
    rfl

theorem records_prefix_readings : (plan data s).records <+: readings data s := by
  rw [readings]
  split
  · exact List.prefix_refl _
  · exact List.prefix_append _ _

theorem Laid.records_of_sated (h : t.Laid limit data stop edge) (hsated : t.Sated)
    {front : List HeaderRecord} (hrecords : t.draft.records = capped limit front)
    (more : List HeaderRecord) : t.draft.records = capped limit (front ++ more) := by
  rw [← capped_capped_append, ← hrecords, h.capped_of_sated hsated]

/-- A run makes the records of all headers from its first station on, as far as the limit allows. -/
theorem Arrived.records_run (h : Arrived limit data s t) :
    (t.run data s).draft.records = capped limit (t.draft.records ++ readings data s) := by
  induction s, t using run.induct data with
  | case1 s t t' heq =>
    have hmade := h.made
    rw [heq] at hmade
    obtain ⟨⟨stop, edge, hlaid, -⟩, hrecords, hgoes⟩ := hmade
    rw [run, heq]
    cases hnext : (plan data s).next with
    | none =>
      rw [readings_of_next_eq_none hnext]
      exact hrecords
    | some next =>
      have hsated : t'.Sated := hgoes.resolve_left (by simp [hnext])
      rw [readings_of_next_eq_some hnext, ← List.append_assoc]
      exact hlaid.records_of_sated hsated hrecords _
  | case2 s t t' next heq ih =>
    have hmade := h.made
    rw [heq] at hmade
    obtain ⟨harrived, hrecords, -⟩ := hmade
    have hnext : (plan data s).next = some next := next_plan_of_step (by rw [heq])
    rw [run, heq, readings_of_next_eq_some hnext]
    simp only at hrecords ⊢
    rw [ih harrived, hrecords, capped_capped_append, List.append_assoc]

end Traversal

end FrameIndex
