import FrameIndex.Traversal
import FrameIndex.Proofs.Type2.Drafting

/-!
# What a traversal notes

As long as a header lies within the captured bytes and an option has a header in front of it, the
only reason not to note it is that there are as many records as may be (`note_of_not_sated`,
`note_of_sated`). What holds at every station of a run, and where the run ends, follows from what
one step does (`run_of_step`).
-/

namespace FrameIndex

namespace Traversal

open Type2.Draft (recordOf Takes)

variable {t : Traversal} {id : HeaderId} {offset length : Nat}

/-! ## Noting a header -/

def Sated (t : Traversal) : Prop := ∃ n, t.limit = some n ∧ n ≤ t.draft.records.length

def noted (t : Traversal) (r : HeaderRecord) : Traversal :=
  { t with draft := { t.draft with records := t.draft.records ++ [r] } }

theorem note_of_takes (hfull : t.full = false) (h : t.draft.Takes t.limit id offset length) :
    t.note id offset length = (t.noted (recordOf id offset length), true) := by
  have hpush := Type2.Draft.pushWithin_eq_ok_iff.2 ⟨h, rfl⟩
  rw [note, if_neg (Bool.eq_false_iff.1 hfull)]
  simp only [hpush]
  rfl

theorem takes_of_not_sated (hsated : ¬ t.Sated)
    (hstop : offset + length ≤ t.draft.captureLength.toNat)
    (howned : id.isOption = true → t.draft.records ≠ []) :
    t.draft.Takes t.limit id offset length where
  room n hn := Nat.lt_of_not_le fun hle => hsated ⟨n, hn, hle⟩
  stop_le := hstop
  owned := howned

def surplus (t : Traversal) : LayoutError :=
  .tooManyRecords (t.draft.records.length + 1) (t.limit.getD 0)

/-- If a record was refused, then because there were as many as may be. -/
def RefusesSurplus (t : Traversal) : Prop :=
  ∀ refusal, t.refused = some refusal → t.Sated ∧ refusal = t.surplus

theorem note_of_not_sated (hsated : ¬ t.Sated) (hrefuses : t.RefusesSurplus)
    (hstop : offset + length ≤ t.draft.captureLength.toNat)
    (howned : id.isOption = true → t.draft.records ≠ []) :
    t.note id offset length = (t.noted (recordOf id offset length), true) := by
  refine note_of_takes (Bool.eq_false_iff.2 fun hfull => ?_)
    (takes_of_not_sated hsated hstop howned)
  obtain ⟨refusal, hrefusal⟩ := Option.isSome_iff_exists.1 hfull
  exact hsated (hrefuses refusal hrefusal).1

/-- The number of records is looked at before anything else. -/
theorem note_of_sated (hsated : t.Sated) (hrefuses : t.RefusesSurplus) :
    t.note id offset length = ({ t with refused := some t.surplus }, false) := by
  unfold note
  by_cases hfull : t.full = true
  · obtain ⟨refusal, hrefusal⟩ := Option.isSome_iff_exists.1 hfull
    rw [if_pos hfull, ← (hrefuses refusal hrefusal).2, ← hrefusal]
  · obtain ⟨n, hn, hle⟩ := hsated
    have hany : t.limit.any (· ≤ t.draft.records.length) = true :=
      (Option.any_eq_true _ _).2 ⟨n, hn, decide_eq_true hle⟩
    have hpush : t.draft.pushWithin t.limit id offset length = .error t.surplus := by
      rw [Type2.Draft.pushWithin, Type2.Draft.accept?, if_pos hany]
      rfl
    rw [if_neg hfull]
    simp only [hpush]

/-! ## Runs -/

/-- What holds of the result of a step: one thing if it goes on, another if it ends the run. -/
def Outcome (going : Station → Traversal → Prop) (done : Traversal → Prop) :
    Traversal × Option Station → Prop
  | (t, some s) => going s t
  | (t, none) => done t

theorem outcome_const_iff {P : Traversal → Prop} {result : Traversal × Option Station} :
    Outcome (fun _ => P) P result ↔ P result.1 := by
  rcases result with ⟨t, next | next⟩ <;> exact Iff.rfl

theorem run_of_step {data : Bytes} {going : Station → Traversal → Prop} {done : Traversal → Prop}
    (hstep : ∀ s t, going s t → Outcome going done (t.step data s)) {s : Station} {t : Traversal}
    (h : going s t) : done (t.run data s) := by
  induction s, t using run.induct data with
  | case1 s t t' heq =>
    have hout := hstep s t h
    rw [heq] at hout
    rw [run, heq]
    exact hout
  | case2 s t t' next heq ih =>
    have hout := hstep s t h
    rw [heq] at hout
    rw [run, heq]
    exact ih hout

end Traversal

end FrameIndex
