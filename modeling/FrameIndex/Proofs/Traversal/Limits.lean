import FrameIndex.Proofs.IndexedFrame.Records
import FrameIndex.Proofs.Traversal.Plans

/-!
# What a limit on the records changes

A traversal with a limit does the same as one without until the first record is refused; from then
on it keeps the records that it has (`Traversal.Follows`). Each action keeps the two together so,
and hence each step and each run (`Traversal.Follows.run`). So of the records that are made without
a limit, the descriptor of a frame has the first sixteen (`IndexedFrame.limit_truncates`).
-/

namespace FrameIndex

namespace Traversal

variable {t u : Traversal} {n : Nat} {a : Action} {actions : List Action} {next : Option Station}
  {data : Bytes} {s : Station}

/-! ## Full traversals -/

theorem full_of_note_refused {id : HeaderId} {offset length : Nat}
    (h : (t.note id offset length).2 = false) : (t.note id offset length).1.full = true := by
  rcases t.note_cases id offset length with ⟨-, -, hnote⟩ | ⟨-, refused, hsome, hnote⟩
  · rw [hnote] at h
    cases h
  · rw [hnote]
    exact hsome

theorem full_of_act_refused (h : (t.act a).2 = false) : (t.act a).1.full = true := by
  cases a with
  | note id offset length => exact full_of_note_refused h
  | frame | noteOptions | describe => cases h

theorem note_of_full (h : t.full = true) (id : HeaderId) (offset length : Nat) :
    t.note id offset length = (t, false) := if_pos h

theorem noteOptions_of_full (h : t.full = true) (idOf : Nat → HeaderId) (offset : Nat)
    (spans : List OptionSpan) : t.noteOptions idOf offset spans = t := by
  cases spans with
  | nil => rfl
  | cons span rest => rw [noteOptions, note_of_full h]

def Stuck (t u : Traversal) : Prop := u.full = true ∧ u.draft.records = t.draft.records

theorem Stuck.act (h : t.Stuck u) (a : Action) : t.Stuck (u.act a).1 := by
  cases a with
  | frame framing => exact h
  | note id offset length =>
    rw [Traversal.act, note_of_full h.1]
    exact h
  | noteOptions idOf offset spans =>
    rw [Traversal.act, noteOptions_of_full h.1]
    exact h
  | describe fragment => exact h

theorem stuck_run (h : t.full = true) (data : Bytes) (s : Station) : t.Stuck (t.run data s) :=
  run_keeps (fun _ a _ _ hu => hu.act a) ⟨h, rfl⟩

theorem open_of_carryOut (h : (t.carryOut next actions).1.full = false) : t.full = false := by
  refine Bool.eq_false_iff.2 fun hfull => ?_
  have hstuck : t.Stuck (t.carryOut next actions).1 :=
    carryOut_keeps (fun a _ _ hu => hu.act a) ⟨hfull, rfl⟩
  rw [hstuck.1] at h
  cases h

theorem records_prefix_carryOut (t : Traversal) (next : Option Station) (actions : List Action) :
    t.draft.records <+: (t.carryOut next actions).1.draft.records := by
  have hadds : t.Adds (fun _ => True) (t.carryOut next actions).1 :=
    carryOut_keeps (fun a _ u hu => hu.trans (adds_act a.names_true u)) (Adds.refl t)
  exact hadds.isPrefix

theorem run_of_ended (h : (t.step data s).2 = none) : t.run data s = (t.step data s).1 := by
  rw [run]
  split
  · rename_i heq
    rw [heq]
  · rename_i heq
    rw [heq] at h
    cases h

theorem run_of_goes {next : Station} (h : (t.step data s).2 = some next) :
    t.run data s = (t.step data s).1.run data next := by
  rw [run]
  split
  · rename_i heq
    rw [heq] at h
    cases h
  · rename_i heq
    rw [heq] at h
    cases h
    rw [heq]

theorem stuck_of_step (h : (t.step data s).1.full = true) :
    (t.step data s).1.Stuck (t.run data s) := by
  cases hnext : (t.step data s).2 with
  | none =>
    rw [run_of_ended hnext]
    exact ⟨h, rfl⟩
  | some next =>
    rw [run_of_goes hnext]
    exact stuck_run h data next

theorem open_of_run (h : (t.run data s).full = false) : t.full = false := by
  refine Bool.eq_false_iff.2 fun hfull => ?_
  rw [(stuck_run hfull data s).1] at h
  cases h

theorem records_prefix_run (t : Traversal) (data : Bytes) (s : Station) :
    t.draft.records <+: (t.run data s).draft.records := by
  have hadds : t.Adds (fun _ => True) (t.run data s) :=
    run_keeps (fun _ a _ u hu => hu.trans (adds_act a.names_true u)) (Adds.refl t)
  exact hadds.isPrefix

/-! ## With a limit and without -/

/-- A traversal with a limit beside one without: they differ in the limit alone, or a record was
refused to the first, which has as many as it may, the first ones of the second. -/
inductive Follows (n : Nat) (t u : Traversal) : Prop where
  | abreast (same : t = { u with limit := some n }) (count_le : u.draft.records.length ≤ n)
  | behind (full : t.full = true) (lt_count : n < u.draft.records.length)
      (records_eq : t.draft.records = u.draft.records.take n)

theorem Follows.records_eq (h : Follows n t u) : t.draft.records = u.draft.records.take n := by
  cases h with
  | abreast same count_le => rw [same, List.take_of_length_le count_le]
  | behind full lt_count records_eq => exact records_eq

theorem Follows.full_iff (h : Follows n t u) (hopen : u.full = false) :
    t.full = true ↔ n < u.draft.records.length := by
  cases h with
  | abreast same count_le =>
    have hfull : t.full = false := by
      rw [same]
      exact hopen
    simp [hfull, Nat.not_lt.2 count_le]
  | behind full lt_count records_eq => exact iff_of_true full lt_count

/-- Behind, the first has what it has, however far the second goes. -/
theorem Follows.behind_of_full (h : Follows n t u) (hopen : u.full = false)
    (hfull : t.full = true) {t' u' : Traversal} (ht : t.Stuck t')
    (hu : u.draft.records <+: u'.draft.records) : Follows n t' u' := by
  have hlt := (h.full_iff hopen).1 hfull
  refine .behind ht.1 (Nat.lt_of_lt_of_le hlt hu.length_le) ?_
  obtain ⟨more, hmore⟩ := hu
  rw [ht.2, h.records_eq, ← hmore, List.take_append_of_le_length (Nat.le_of_lt hlt)]

theorem Follows.note (h : Follows n t u) {id : HeaderId} {offset length : Nat}
    (hopen : (u.note id offset length).1.full = false) :
    Follows n (t.note id offset length).1 (u.note id offset length).1 := by
  rcases u.note_cases id offset length with ⟨hfull, htakes, hnote⟩ | ⟨-, refused, hsome, hnote⟩
  case inr =>
    rw [hnote, show ({ u with refused } : Traversal).full = refused.isSome from rfl, hsome] at hopen
    cases hopen
  rw [hnote]
  by_cases hbehind : t.full = true
  · rw [note_of_full hbehind]
    exact h.behind_of_full hfull hbehind ⟨hbehind, rfl⟩ (List.prefix_append _ _)
  have hcount : u.draft.records.length ≤ n :=
    Nat.le_of_not_lt fun hlt => hbehind ((h.full_iff hfull).2 hlt)
  cases h with
  | behind full => exact absurd full hbehind
  | abreast same =>
    rcases t.note_cases id offset length with ⟨-, htakes', hnote'⟩ | ⟨hnot, refused, hsome, hnote'⟩
    · rw [hnote']
      subst same
      have hroom : u.draft.records.length < n := htakes'.room n rfl
      exact .abreast rfl (by simp only [noted, List.length_append, List.length_singleton]; omega)
    · -- the second takes what the first refuses: there is no room left
      rw [hnote']
      subst same
      have hfilled : u.draft.records.length = n := by
        refine Nat.le_antisymm hcount (Nat.le_of_not_lt fun hroom => ?_)
        exact hnot.resolve_left hbehind
          ⟨fun m hm => Option.some.inj hm ▸ hroom, htakes.stop_le, htakes.owned⟩
      refine .behind hsome ?_ ?_
      · simp only [noted, List.length_append, List.length_singleton]
        omega
      · simp only [noted]
        rw [List.take_append_of_le_length (Nat.le_of_eq hfilled.symm),
          List.take_of_length_le hcount]

/-- Actions that are carried out side by side go on side by side, or the first is full. -/
theorem Follows.carryOut (hact : ∀ a ∈ actions, ∀ t u, Follows n t u → (u.act a).1.full = false →
      Follows n (t.act a).1 (u.act a).1)
    (h : Follows n t u) (hopen : (u.carryOut next actions).1.full = false) :
    Follows n (t.carryOut next actions).1 (u.carryOut next actions).1 ∧
      ((t.carryOut next actions).2 = (u.carryOut next actions).2 ∨
        (t.carryOut next actions).1.full = true) := by
  induction actions generalizing t u with
  | nil => exact ⟨h, .inl rfl⟩
  | cons a rest ih =>
    have hgoes : (u.act a).2 = true := by
      refine (Bool.not_eq_false _).mp fun hrefused => ?_
      rw [carryOut_of_refused hrefused, full_of_act_refused hrefused] at hopen
      cases hopen
    rw [carryOut_of_done hgoes] at hopen ⊢
    have hopen' := open_of_carryOut hopen
    have hfollows := hact a List.mem_cons_self t u h hopen'
    cases hdone : (t.act a).2 with
    | true =>
      rw [carryOut_of_done hdone]
      exact ih (fun b hb => hact b (List.mem_cons_of_mem a hb)) hfollows hopen
    | false =>
      have hfull := full_of_act_refused hdone
      rw [carryOut_of_refused hdone]
      exact ⟨hfollows.behind_of_full hopen' hfull ⟨hfull, rfl⟩ (records_prefix_carryOut _ _ _),
        .inr hfull⟩

theorem Follows.noteOptions (h : Follows n t u) {idOf : Nat → HeaderId} {offset : Nat}
    {spans : List OptionSpan} (hopen : (u.noteOptions idOf offset spans).full = false) :
    Follows n (t.noteOptions idOf offset spans) (u.noteOptions idOf offset spans) := by
  rw [noteOptions_eq_carryOut] at hopen ⊢
  rw [noteOptions_eq_carryOut]
  refine (h.carryOut (fun a ha t u hfollows hopen => ?_) hopen).1
  obtain ⟨id, offset, length, rfl⟩ := exists_eq_note_of_mem ha
  exact hfollows.note hopen

theorem Follows.act (h : Follows n t u) (hopen : (u.act a).1.full = false) :
    Follows n (t.act a).1 (u.act a).1 := by
  cases a with
  | note id offset length => exact h.note hopen
  | noteOptions idOf offset spans => exact h.noteOptions hopen
  | frame framing =>
    cases h with
    | abreast same count_le => exact .abreast (by rw [same]; rfl) count_le
    | behind full lt_count records_eq => exact .behind full lt_count records_eq
  | describe fragment =>
    cases h with
    | abreast same count_le => exact .abreast (by rw [same]; rfl) count_le
    | behind full lt_count records_eq => exact .behind full lt_count records_eq

theorem Follows.step (h : Follows n t u) (hopen : (u.step data s).1.full = false) :
    Follows n (t.step data s).1 (u.step data s).1 ∧
      ((t.step data s).2 = (u.step data s).2 ∨ (t.step data s).1.full = true) := by
  rw [step_eq_carryOut] at hopen ⊢
  rw [step_eq_carryOut]
  exact h.carryOut (fun _ _ _ _ hfollows => hfollows.act) hopen

theorem Follows.run (h : Follows n t u) (hopen : (u.run data s).full = false) :
    Follows n (t.run data s) (u.run data s) := by
  -- the run without a limit is never the shorter one
  induction s, u using run.induct data generalizing t with
  | case1 s u u' hu =>
    have hended : (u.step data s).2 = none := by rw [hu]
    rw [run_of_ended hended] at hopen ⊢
    obtain ⟨hfollows, hnext⟩ := h.step hopen
    rcases hnext with hnext | hfull
    · rw [run_of_ended (hnext.trans hended)]
      exact hfollows
    · exact hfollows.behind_of_full hopen hfull (stuck_of_step hfull) (List.prefix_refl _)
  | case2 s u u' next hu ih =>
    have hgoes : (u.step data s).2 = some next := by rw [hu]
    have hstep : (u.step data s).1 = u' := by rw [hu]
    rw [run_of_goes hgoes, hstep] at hopen ⊢
    have hopen' := open_of_run hopen
    obtain ⟨hfollows, hnext⟩ := h.step (by rw [hstep]; exact hopen')
    rw [hstep] at hfollows
    rcases hnext with hnext | hfull
    · rw [run_of_goes (hnext.trans hgoes)]
      exact ih hfollows hopen
    · exact hfollows.behind_of_full hopen' hfull (stuck_of_step hfull)
        (records_prefix_run u' data next)

theorem full_ofEthernet_none (hlen : data.length ≤ 65535) :
    (ofEthernet none data).full = false := by
  obtain ⟨stop, edge, hlaid, -⟩ := tidy_ofEthernet none hlen
  refine Bool.eq_false_iff.2 fun hfull => ?_
  obtain ⟨refusal, hrefusal⟩ := Option.isSome_iff_exists.1 hfull
  obtain ⟨⟨m, hm, -⟩, -⟩ := hlaid.refuses refusal hrefusal
  rw [hlaid.limit_eq] at hm
  cases hm

theorem follows_ofEthernet (n : Nat) (hlen : data.length ≤ 65535) :
    Follows n (ofEthernet (some n) data) (ofEthernet none data) :=
  Follows.run (.abreast rfl (Nat.zero_le n)) (full_ofEthernet_none hlen)

end Traversal

namespace IndexedFrame

/-- The traversal of a frame within a limit on its records, if there is one. -/
def traversalWithin (limit : Option Nat) (frame : Frame) : Traversal :=
  if frame.linkType = Frame.ethernetLink then Traversal.ofEthernet limit (clip frame)
  else Traversal.start limit (clip frame)

theorem full_traversalWithin_none (frame : Frame) : (traversalWithin none frame).full = false := by
  unfold traversalWithin
  split
  · exact Traversal.full_ofEthernet_none (length_clip_le frame)
  · rfl

theorem follows_traversalWithin (n : Nat) (frame : Frame) :
    Traversal.Follows n (traversalWithin (some n) frame) (traversalWithin none frame) := by
  unfold traversalWithin
  split
  · exact Traversal.follows_ofEthernet n (length_clip_le frame)
  · exact .abreast rfl (Nat.zero_le n)

/-- **A limit on the records only cuts them off.** The descriptor of a frame has the first sixteen
of the records that its traversal makes without a limit, and a record was refused exactly if there
are more. Whatever was found so far, a traversal goes on recording behind the records that it has,
and records nothing more once a record was refused. -/
theorem limit_truncates (frame : Frame) :
    traversal frame = traversalWithin (some 16) frame ∧
    (traversalWithin none frame).refused = none ∧
    Type2.records (indexed frame).descriptor =
      (traversalWithin none frame).draft.records.take 16 ∧
    ((traversal frame).refused ≠ none ↔
      16 < (traversalWithin none frame).draft.records.length) ∧
    (∀ (t : Traversal) (s : Station),
      t.draft.records <+: (t.run (clip frame) s).draft.records) ∧
    (∀ (t : Traversal) (s : Station), t.refused ≠ none →
      (t.run (clip frame) s).draft.records = t.draft.records) := by
  have hopen := full_traversalWithin_none frame
  have hfollows := follows_traversalWithin 16 frame
  refine ⟨rfl, ?_, ?_, ?_, fun t => t.records_prefix_run (clip frame), fun t s hrefused => ?_⟩
  · exact Option.isNone_iff_eq_none.1 (by rw [← Option.not_isSome]; exact congrArg (!·) hopen)
  · rw [records_indexed]
    exact hfollows.records_eq
  · rw [← hfollows.full_iff hopen, ← Option.isSome_iff_ne_none]
    rfl
  · exact (Traversal.stuck_run (Option.isSome_iff_ne_none.2 hrefused) (clip frame) s).2

end IndexedFrame

end FrameIndex
