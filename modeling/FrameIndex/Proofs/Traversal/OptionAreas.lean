import FrameIndex.Proofs.OptionSpan.Parsing
import FrameIndex.Proofs.Traversal.Noting
import Mathlib.Algebra.GroupWithZero.Nat

/-!
# The options of an area

The records that are noted of an option area follow one another from its front: each is that of the
option, or of the run of options, that stands where the one before it ends (`HeaderRecord.Covers`).
Unless a record was refused, noting stops where no option stands any longer, so that no other list
of options reaches further (`Traversal.options_cover_area`).
-/

namespace FrameIndex

namespace HeaderRecord

/-- The records are those of the options at the front of an area that begins at `start`; `rest` is
what is left behind them. Each has the identifier of its first byte. -/
inductive Covers (idOf : Nat → HeaderId) :
    (start : Nat) → (area : Bytes) → List HeaderRecord → (rest : Bytes) → Prop where
  | nil (start : Nat) (area : Bytes) : Covers idOf start area [] area
  | cons {start : Nat} {area rest : Bytes} {span : OptionSpan} {r : HeaderRecord}
      {records : List HeaderRecord} (heads : OptionSpan.Heads area span)
      (id_eq : r.id = idOf (area.byteAt 0)) (start_eq : r.start = start)
      (size_eq : r.size = span.length)
      (behind : Covers idOf (start + r.size) (area.drop r.size) records rest) :
      Covers idOf start area (r :: records) rest

section

variable {idOf : Nat → HeaderId} {start : Nat} {area rest rest' : Bytes}
  {records records' : List HeaderRecord}

theorem ext_iff_range {r r' : HeaderRecord} :
    r = r' ↔ r.id = r'.id ∧ r.start = r'.start ∧ r.size = r'.size := by
  obtain ⟨id, offset, length⟩ := r
  obtain ⟨id', offset', length'⟩ := r'
  simp only [mk.injEq, start, size, UInt16.toNat_inj]

theorem Covers.sum_size (h : Covers idOf start area records rest) :
    (records.map (·.size)).sum + rest.length = area.length := by
  induction h with
  | nil start area => simp
  | @cons start area rest span r records heads id_eq start_eq size_eq behind ih =>
    have hle := heads.length_le
    rw [List.length_drop] at ih
    simp only [List.map_cons, List.sum_cons]
    omega

theorem Covers.size_pos (h : Covers idOf start area records rest) : ∀ r ∈ records, 0 < r.size := by
  induction h with
  | nil start area => simp
  | cons heads id_eq start_eq size_eq behind ih =>
    have hpos := heads.length_pos
    intro r hr
    rcases List.mem_cons.1 hr with rfl | hr
    · omega
    · exact ih r hr

/-- Records that go on until no option stands any longer go further than any others. -/
theorem Covers.isPrefix (h : Covers idOf start area records rest)
    (h' : Covers idOf start area records' rest')
    (hlast : rest' = [] ∨ OptionSpan.Malformed rest') : records <+: records' := by
  induction h generalizing records' with
  | nil start area => exact List.nil_prefix
  | @cons start area rest span r records heads id_eq start_eq size_eq behind ih =>
    cases h' with
    | nil =>
      -- an option stands at the front of an area that has none
      have hparse := OptionSpan.parse_of_heads heads
      rw [OptionSpan.parse_eq_nil_iff.2 hlast] at hparse
      cases hparse
    | @cons _ _ _ span' r' records' heads' id_eq' start_eq' size_eq' behind' =>
      have hspan : span = span' := heads.unique heads'
      subst hspan
      have hr : r = r' := by
        apply ext_iff_range.2
        exact ⟨id_eq.trans id_eq'.symm, start_eq.trans start_eq'.symm, size_eq.trans size_eq'.symm⟩
      subst hr
      exact (List.cons_prefix_cons).2 ⟨rfl, ih behind'⟩

end

end HeaderRecord

namespace Traversal

open HeaderRecord (Covers)
open Type2.Draft (recordOf Takes)

theorem note_cases (t : Traversal) (id : HeaderId) (offset length : Nat) :
    (t.full = false ∧ t.draft.Takes t.limit id offset length ∧
      t.note id offset length = (t.noted (recordOf id offset length), true)) ∨
    ((t.full = true ∨ ¬ t.draft.Takes t.limit id offset length) ∧
      ∃ refused, refused.isSome ∧ t.note id offset length = ({ t with refused }, false)) := by
  by_cases hfull : t.full = true
  · refine .inr ⟨.inl hfull, t.refused, hfull, ?_⟩
    rw [note, if_pos hfull]
  · cases hpush : t.draft.pushWithin t.limit id offset length with
    | ok draft =>
      have htakes := (Type2.Draft.pushWithin_eq_ok_iff.1 hpush).1
      have hfull : t.full = false := Bool.eq_false_iff.2 hfull
      exact .inl ⟨hfull, htakes, note_of_takes hfull htakes⟩
    | error refusal =>
      refine .inr ⟨.inr fun htakes => ?_, some refusal, rfl, ?_⟩
      · rw [Type2.Draft.pushWithin_eq_ok_iff.2 ⟨htakes, rfl⟩] at hpush
        cases hpush
      · rw [note, if_neg hfull]
        simp only [hpush]

/-- Noting the options of an area comes to its end for one of three reasons: no option stands behind
those that were noted, nothing could be noted from the start, or the next option was refused. -/
structure Ends (t : Traversal) (idOf : Nat → HeaderId) (start : Nat) (noted : List HeaderRecord)
    (rest : Bytes) (after : Traversal) : Prop where
  done : after.full = false → rest = [] ∨ OptionSpan.Malformed rest
  refused : after.full = true → t.full = true ∧ noted = [] ∨
    ∃ span, OptionSpan.Heads rest span ∧
      ¬ after.draft.Takes t.limit (idOf span.kind) (start + (noted.map (·.size)).sum) span.length

theorem exists_covers_noteOptions {spans : List OptionSpan} (t : Traversal)
    (idOf : Nat → HeaderId) (start : Nat) {area : Bytes} (hspans : OptionSpan.parse area = spans) :
    ∃ noted rest,
      t.noteOptions idOf start spans = { t with
        draft := { t.draft with records := t.draft.records ++ noted }
        refused := (t.noteOptions idOf start spans).refused } ∧
      Covers idOf start area noted rest ∧
      Ends t idOf start noted rest (t.noteOptions idOf start spans) := by
  induction spans generalizing t start area with
  | nil =>
    have hempty := OptionSpan.parse_eq_nil_iff.1 hspans
    refine ⟨[], area, ?_, .nil start area, fun _ => hempty, fun hfull => .inl ⟨hfull, rfl⟩⟩
    simp [noteOptions]
  | cons span spans ih =>
    obtain ⟨hheads, hbehind⟩ := OptionSpan.parse_eq_cons_iff.1 hspans
    rw [noteOptions]
    rcases t.note_cases (idOf span.kind) start span.length with
      ⟨hfull, htakes, hnote⟩ | ⟨hrefused, refused, hsome, hnote⟩
    · simp only [hnote]
      have hr : (recordOf (idOf span.kind) start span.length).size = span.length := htakes.size_eq
      obtain ⟨noted, rest, hafter, hcovers, hends⟩ :=
        ih (t.noted (recordOf (idOf span.kind) start span.length)) (start + span.length) hbehind.symm
      refine ⟨recordOf (idOf span.kind) start span.length :: noted, rest, ?_, ?_, ?_⟩
      · refine hafter.trans ?_
        simp [Traversal.noted]
      · apply Covers.cons hheads
        · rw [← hheads.kind_eq]
          rfl
        · exact htakes.start_eq
        · exact hr
        · rw [hr]
          exact hcovers
      · refine ⟨hends.done, fun hlast => .inr ?_⟩
        rcases hends.refused hlast with ⟨hfull', -⟩ | ⟨next, hnext, hnot⟩
        · -- nothing had been refused when the first option was noted
          rw [show (t.noted _).full = t.full from rfl, hfull] at hfull'
          cases hfull'
        · refine ⟨next, hnext, ?_⟩
          rw [List.map_cons, List.sum_cons, hr, ← Nat.add_assoc]
          exact hnot
    · simp only [hnote]
      refine ⟨[], area, by simp, .nil start area, ?_, fun _ => ?_⟩
      · intro hdone
        rw [show ({ t with refused } : Traversal).full = refused.isSome from rfl, hsome] at hdone
        cases hdone
      · rcases hrefused with hfull | hnot
        · exact .inl ⟨hfull, rfl⟩
        · exact .inr ⟨span, hheads, hnot⟩

/-- **The options of an area are noted as far as they go.** The records that are noted of an area
follow one another from its front. Each is a run of no-operation options up to another byte, an
option of the length that it states, or an end-of-list option with everything that is left, and it
has the identifier of its first byte. None is empty, and with what is left they make up the area. As
long as no record is refused, they go on until the area is used up or malformed, and no other
options of the area reach further. If a record is refused, it is that of the next option. -/
theorem options_cover_area (t : Traversal) (idOf : Nat → HeaderId) (start : Nat) (area : Bytes) :
    let after := t.noteOptions idOf start (OptionSpan.parse area)
    ∃ noted rest,
      after = { t with
        draft := { t.draft with records := t.draft.records ++ noted }
        refused := after.refused } ∧
      Covers idOf start area noted rest ∧
      (∀ r ∈ noted, 0 < r.size) ∧ (noted.map (·.size)).sum + rest.length = area.length ∧
      Ends t idOf start noted rest after ∧
      (after.full = false →
        ∀ records rest', Covers idOf start area records rest' → records <+: noted) := by
  intro after
  obtain ⟨noted, rest, hafter, hcovers, hends⟩ := t.exists_covers_noteOptions idOf start rfl
  refine ⟨noted, rest, hafter, hcovers, hcovers.size_pos, hcovers.sum_size, hends, ?_⟩
  intro hdone records rest' hother
  exact hother.isPrefix hcovers (hends.done hdone)

end Traversal

end FrameIndex
