import FrameIndex.Proofs.Traversal.Limits

/-!
# How deep readers of headers call one another

The header at a station is read by the reader of its layer; the extension headers of IPv6 are turns
of a loop in the reader of the header in front of them (`Traversal.read`). Where the next header is
known, its reader is called. A reader that calls another one has recorded a header of its own
(`Traversal.RecordsAt`) and the other one stands further behind, so with at most sixteen records
there are never more than sixteen readers above the one at work
(`IndexedFrame.nesting_is_bounded`).
-/

namespace FrameIndex

namespace Traversal

variable {t t' u : Traversal} {data : Bytes} {s next : Station} {actions : List Action}

/-! ## Own records -/

/-- The second traversal has more records than the first, and among those one of the header at the
station. -/
def RecordsAt (s : Station) (t t' : Traversal) : Prop :=
  ∃ more, t'.draft.records = t.draft.records ++ more ∧
    ∃ r ∈ more, r.id ∈ s.layer.ids ∧ r.start = s.offset

theorem RecordsAt.length_lt (h : RecordsAt s t t') :
    t.draft.records.length < t'.draft.records.length := by
  obtain ⟨more, hrecords, r, hr, -⟩ := h
  have hpos := List.length_pos_of_mem hr
  rw [hrecords, List.length_append]
  omega

theorem RecordsAt.exists_mem (h : RecordsAt s t t') :
    ∃ r ∈ t'.draft.records, r.id ∈ s.layer.ids ∧ r.start = s.offset := by
  obtain ⟨more, hrecords, r, hr, hown⟩ := h
  exact ⟨r, hrecords ▸ List.mem_append_right _ hr, hown⟩

theorem RecordsAt.isPrefix (h : RecordsAt s t t') : t.draft.records <+: t'.draft.records := by
  obtain ⟨more, hrecords, -⟩ := h
  exact ⟨more, hrecords.symm⟩

theorem RecordsAt.append (h : RecordsAt s t t') (hmore : t'.draft.records <+: u.draft.records) :
    RecordsAt s t u := by
  obtain ⟨more, hrecords, r, hr, hown⟩ := h
  obtain ⟨more', hrecords'⟩ := hmore
  refine ⟨more ++ more', ?_, r, List.mem_append_left more' hr, hown⟩
  rw [← hrecords', hrecords, List.append_assoc]

theorem RecordsAt.prepend (hmore : t.draft.records <+: u.draft.records) (h : RecordsAt s u t') :
    RecordsAt s t t' := by
  obtain ⟨more, hrecords⟩ := hmore
  obtain ⟨more', hrecords', r, hr, hown⟩ := h
  refine ⟨more ++ more', ?_, r, List.mem_append_right more hr, hown⟩
  rw [hrecords', ← hrecords, List.append_assoc]

theorem records_prefix_act (t : Traversal) (a : Action) :
    t.draft.records <+: (t.act a).1.draft.records :=
  Adds.isPrefix (adds_act a.names_true t)

theorem records_prefix_step (t : Traversal) (data : Bytes) (s : Station) :
    t.draft.records <+: (t.step data s).1.draft.records := by
  rw [step_eq_carryOut]
  exact records_prefix_carryOut t _ _

theorem recordsAt_note {id : HeaderId} {length : Nat} (hid : id ∈ s.layer.ids)
    (hdone : (t.note id s.offset length).2 = true) :
    RecordsAt s t (t.note id s.offset length).1 := by
  rcases t.note_cases id s.offset length with ⟨-, htakes, hnoted⟩ | ⟨-, refused, -, hnoted⟩
  · rw [hnoted]
    exact ⟨[_], rfl, _, List.mem_cons_self, hid, htakes.start_eq⟩
  · rw [hnoted] at hdone
    cases hdone

theorem recordsAt_carryOut {id : HeaderId} {length : Nat} (hid : id ∈ s.layer.ids)
    (hnote : .note id s.offset length ∈ actions) {next : Option Station}
    (hgoes : (t.carryOut next actions).2 ≠ none) :
    RecordsAt s t (t.carryOut next actions).1 := by
  induction actions generalizing t with
  | nil => cases hnote
  | cons a rest ih =>
    cases hdone : (t.act a).2 with
    | false =>
      rw [carryOut_of_refused hdone] at hgoes
      exact absurd rfl hgoes
    | true =>
      rw [carryOut_of_done hdone] at hgoes ⊢
      rcases List.mem_cons.1 hnote with rfl | hrest
      · exact (recordsAt_note hid hdone).append (records_prefix_carryOut _ _ _)
      · exact (ih hrest hgoes).prepend (t.records_prefix_act a)

theorem Adjoins.exists_note {start : Nat} (h : Adjoins data s start actions (some next))
    (hle : start ≤ s.offset) :
    ∃ id ∈ s.layer.ids, ∃ length, .note id start length ∈ actions := by
  generalize hnext : some next = goal at h
  induction h with
  | done goes =>
    have hgoes := goes next hnext.symm
    omega
  | remark remark behind ih =>
    obtain ⟨id, hid, length, hnote⟩ := ih hle hnext
    exact ⟨id, hid, length, List.mem_cons_of_mem _ hnote⟩
  | header id_mem pos stop_le behind ih => exact ⟨_, id_mem, _, List.mem_cons_self⟩
  | optioned id_mem pos stop_le owns behind ih => exact ⟨_, id_mem, _, List.mem_cons_self⟩

theorem exists_note_mem_plan (h : (plan data s).next = some next) :
    ∃ id ∈ s.layer.ids, ∃ length, .note id s.offset length ∈ (plan data s).actions := by
  have hfits := fits_plan data s
  rw [Plan.Fits, h] at hfits
  exact hfits.exists_note (Nat.le_refl _)

theorem recordsAt_step (h : t.step data s = (t', some next)) : RecordsAt s t t' := by
  obtain ⟨id, hid, length, hnote⟩ := exists_note_mem_plan (next_plan_of_step (by rw [h]))
  rw [step_eq_carryOut] at h
  have hown := recordsAt_carryOut (t := t) hid hnote (by rw [h]; nofun)
  rwa [h] at hown

end Traversal

/-! ## Turns -/

namespace Layer

/-- Whether the headers of the layer are read in the loop of the header in front of them. -/
def isTurn : Layer → Bool
  | .ipv6Extension _ => true
  | _ => false

theorem isTurn_of_mem_ofEtherTypes : ∀ layer ∈ ofEtherTypes, layer.isTurn = false := by decide

theorem isTurn_of_mem_ofProtocols : ∀ layer ∈ ofProtocols, layer.isTurn = false := by decide

/-- Only the readers of IPv6 headers have such a loop. -/
theorem eq_ipv6_of_announces_turn {layer next : Layer} (h : layer.announces next)
    (hturn : next.isTurn = true) : layer = .ipv6 ∨ layer.isTurn = true := by
  have hether : next ∉ ofEtherTypes := fun hmem => by
    rw [isTurn_of_mem_ofEtherTypes next hmem] at hturn
    cases hturn
  have hprotocol : next ∉ ofProtocols := fun hmem => by
    rw [isTurn_of_mem_ofProtocols next hmem] at hturn
    cases hturn
  cases layer with
  | ethernet =>
    rcases h with rfl | hmem
    · cases hturn
    · exact absurd hmem hether
  | llc | vlan => exact absurd h hether
  | ipv4 => exact absurd h hprotocol
  | ipv6 => exact .inl rfl
  | ipv6Extension kind => exact .inr rfl
  | gre =>
    rcases h with rfl | hmem
    · cases hturn
    · exact absurd hmem hether
  | arp | tcp | udp | icmp | icmpv6 => exact h.elim

end Layer

namespace Traversal

variable {t t' : Traversal} {data : Bytes} {s next : Station}

theorem offset_of_header {id : HeaderId} {offset length : Nat} {others : List Action}
    {layer : Option Layer} (h : (Plan.header id offset length others layer).next = some next) :
    next.offset = offset + length := by
  obtain ⟨layer, -, rfl⟩ := Option.map_eq_some_iff.1 h
  rfl

theorem offset_of_turn {kind : Ipv6Extension} {offset : Nat}
    (h : t.step data ⟨.ipv6Extension kind, offset⟩ = (t', some next)) :
    next.offset = offset + kind.length (data.drop offset) := by
  have hplan := next_plan_of_step (by rw [h])
  simp only [plan] at hplan
  split_ifs at hplan
  · cases hplan
  all_goals exact offset_of_header hplan

/-! ## Readers -/

/-- Reads the header at a station and the extension headers behind it. Says which header is to be
read next, if it is known. -/
def read (data : Bytes) (s : Station) (t : Traversal) : Traversal × Option Station :=
  match _h : t.step data s with
  | (t, none) => (t, none)
  | (t, some next) => if next.layer.isTurn then t.read data next else (t, some next)
  termination_by data.length - s.offset
  decreasing_by
    have := step_advances _h
    omega

theorem read_of_ended (h : t.step data s = (t', none)) : t.read data s = (t', none) := by
  rw [read, h]

theorem read_of_goes (h : t.step data s = (t', some next)) :
    t.read data s = if next.layer.isTurn then t'.read data next else (t', some next) := by
  rw [read, h]

theorem run_of_read (t : Traversal) (data : Bytes) (s : Station) :
    t.run data s = match t.read data s with
      | (t, none) => t
      | (t, some next) => t.run data next := by
  induction s, t using read.induct data with
  | case1 s t t' hended => rw [read_of_ended hended, run_of_ended (by rw [hended]), hended]
  | case2 s t t' next hgoes hturn ih =>
    rw [read_of_goes hgoes, if_pos hturn, run_of_goes (by rw [hgoes]), hgoes]
    exact ih
  | case3 s t t' next hgoes hcall =>
    rw [read_of_goes hgoes, if_neg hcall, run_of_goes (by rw [hgoes]), hgoes]

theorem read_of_step {going : Station → Traversal → Prop} {done : Traversal → Prop}
    (hstep : ∀ s t, going s t → Outcome going done (t.step data s)) (h : going s t) :
    Outcome going done (t.read data s) := by
  induction s, t using read.induct data with
  | case1 s t t' hended =>
    rw [read_of_ended hended, ← hended]
    exact hstep s t h
  | case2 s t t' next hgoes hturn ih =>
    rw [read_of_goes hgoes, if_pos hturn]
    have hout := hstep s t h
    rw [hgoes] at hout
    exact ih hout
  | case3 s t t' next hgoes hcall =>
    rw [read_of_goes hgoes, if_neg hcall, ← hgoes]
    exact hstep s t h

theorem records_prefix_read (t : Traversal) (data : Bytes) (s : Station) :
    t.draft.records <+: (t.read data s).1.draft.records := by
  have hstep (s : Station) (u : Traversal) (hu : t.draft.records <+: u.draft.records) :
      t.draft.records <+: (u.step data s).1.draft.records :=
    hu.trans (u.records_prefix_step data s)
  have hout : Outcome (fun _ u => t.draft.records <+: u.draft.records)
      (fun u => t.draft.records <+: u.draft.records) (t.read data s) :=
    read_of_step (fun s u hu => outcome_const_iff.2 (hstep s u hu)) (List.prefix_refl _)
  exact outcome_const_iff.1 hout

theorem of_read_calls (h : t.read data s = (t', some next)) :
    next.layer.isTurn = false ∧ s.offset < next.offset ∧ RecordsAt s t t' := by
  induction s, t using read.induct data with
  | case1 s t u hended =>
    rw [read_of_ended hended] at h
    cases h
  | case2 s t u turn hgoes hturn ih =>
    rw [read_of_goes hgoes, if_pos hturn] at h
    -- the record that the turn has is not at this station: the step before it made one that is
    obtain ⟨hcalled, hlt, -⟩ := ih h
    have hmore := u.records_prefix_read data turn
    rw [h] at hmore
    exact ⟨hcalled, (step_advances hgoes).1.trans hlt, (recordsAt_step hgoes).append hmore⟩
  | case3 s t u called hgoes hcall =>
    rw [read_of_goes hgoes, if_neg hcall] at h
    cases h
    exact ⟨Bool.eq_false_iff.2 hcall, (step_advances hgoes).1, recordsAt_step hgoes⟩

theorem Arrived.read {limit : Option Nat} (h : Arrived limit data s t) :
    Orderly limit data (t.read data s) :=
  read_of_step (fun _ _ => Arrived.step) h

theorem Arrived.count_le {n : Nat} (h : Arrived (some n) data s t) :
    t.draft.records.length ≤ n := by
  obtain ⟨⟨edge, hlaid, -⟩, -⟩ := h
  exact hlaid.sound.count n rfl

theorem arrived_start (limit : Option Nat) (hlen : data.length ≤ 65535) :
    Arrived limit data ⟨.ethernet, 0⟩ (start limit data) :=
  ⟨tidy_start limit hlen, .inl rfl⟩

/-! ## Readers above one another -/

/-- The readers that wait for one that they called, the latest first, where the reader at work
begins, and what was found by then. -/
inductive Waiting (data : Bytes) : List Station → Station → Traversal → Prop where
  | first : Waiting data [] ⟨.ethernet, 0⟩ (start (some Type2.maxRecords) data)
  | call {above : List Station} {s next : Station} {t t' : Traversal}
      (waiting : Waiting data above s t) (calls : t.read data s = (t', some next)) :
      Waiting data (s :: above) next t'

namespace Waiting

variable {above : List Station}

theorem arrived (hlen : data.length ≤ 65535) (h : Waiting data above s t) :
    Arrived (some Type2.maxRecords) data s t := by
  induction h with
  | first => exact arrived_start _ hlen
  | call waiting calls ih =>
    have hread := ih.read
    rw [calls] at hread
    exact hread

/-- Whoever waits, the reader at work goes on with the traversal of the frame. -/
theorem run_eq (h : Waiting data above s t) :
    t.run data s = ofEthernet (some Type2.maxRecords) data := by
  induction h with
  | first => rfl
  | @call _ s _ t _ _ calls ih => rw [← ih, run_of_read t data s, calls]

/-- Each reader that waits has at least one record more than the readers above it. -/
theorem length_le_count (h : Waiting data above s t) : above.length ≤ t.draft.records.length := by
  induction h with
  | first => exact Nat.zero_le _
  | call waiting calls ih =>
    have hlt := (of_read_calls calls).2.2.length_lt
    rw [List.length_cons]
    omega

theorem length_le (hlen : data.length ≤ 65535) (h : Waiting data above s t) : above.length ≤ 16 :=
  h.length_le_count.trans (h.arrived hlen).count_le

theorem descending (h : Waiting data above s t) :
    (s :: above).Pairwise fun a b => b.offset < a.offset := by
  induction h with
  | first => exact List.pairwise_singleton _ _
  | call waiting calls ih =>
    have hlt := (of_read_calls calls).2.1
    refine List.pairwise_cons.2 ⟨fun b hb => ?_, ih⟩
    rcases List.mem_cons.1 hb with rfl | hb
    · exact hlt
    · exact (List.rel_of_pairwise_cons ih hb).trans hlt

theorem recorded (h : Waiting data above s t) {a : Station} (ha : a ∈ above) :
    ∃ r ∈ t.draft.records, r.id ∈ a.layer.ids ∧ r.start = a.offset := by
  induction h with
  | first => cases ha
  | call waiting calls ih =>
    have hown := (of_read_calls calls).2.2
    rcases List.mem_cons.1 ha with rfl | ha
    · exact hown.exists_mem
    · obtain ⟨r, hr, hrecord⟩ := ih ha
      exact ⟨r, hown.isPrefix.subset hr, hrecord⟩

end Waiting

/-- Readers that call one another, with room for so many of them at a time. There is no result
without room. -/
def nested (data : Bytes) : Nat → Station → Traversal → Option Traversal
  | 0, _, _ => none
  | room + 1, s, t =>
    match t.read data s with
    | (t, none) => some t
    | (t, some next) => nested data room next t

/-- Room for one reader and for as many as there may be records more is enough. -/
theorem nested_eq_run {n room : Nat} (h : Arrived (some n) data s t)
    (hroom : n < room + t.draft.records.length) : nested data room s t = some (t.run data s) := by
  induction room generalizing s t with
  | zero =>
    have := h.count_le
    omega
  | succ room ih =>
    rw [nested, run_of_read]
    have harrived := h.read
    rcases hread : t.read data s with ⟨t', next | next⟩
    · rfl
    · rw [hread] at harrived
      -- the call takes up room for one reader, but its own record makes up for that
      have hlt := (of_read_calls hread).2.2.length_lt
      exact ih harrived (by omega)

end Traversal

namespace IndexedFrame

/-- What is found in a frame with room for so many readers at a time. -/
def nestedTraversal (room : Nat) (frame : Frame) : Option Traversal :=
  let start := Traversal.start (some Type2.maxRecords) (clip frame)
  if frame.linkType = Frame.ethernetLink then start.nested (clip frame) room ⟨.ethernet, 0⟩
  else some start

theorem nestedTraversal_eq (frame : Frame) : nestedTraversal 17 frame = some (traversal frame) := by
  unfold nestedTraversal traversal
  split
  · refine Traversal.nested_eq_run (Traversal.arrived_start _ (length_clip_le frame)) ?_
    show 16 < 17 + 0
    omega
  · rfl

/-- **Readers of headers are never more than sixteen deep.** Above the reader at work, which goes on
with the traversal, no more than sixteen others wait, each further in front than the one below it
and with a record of its own, so room for seventeen readers is enough for any frame. A reader that
calls another one has recorded a header where it stands, and the other one begins behind that. What
is read in a loop comes behind an IPv6 header or another turn, and a turn moves on by the length of
a header, of eight bytes or more. -/
theorem nesting_is_bounded (frame : Frame) :
    (∀ above s t, Traversal.Waiting (clip frame) above s t →
      t.run (clip frame) s = Traversal.ofEthernet (some 16) (clip frame) ∧
      above.length ≤ 16 ∧
      (s :: above).Pairwise (fun a b => b.offset < a.offset) ∧
      ∀ a ∈ above, ∃ r ∈ t.draft.records, r.id ∈ a.layer.ids ∧ r.start = a.offset) ∧
    (∀ (s next : Station) (t t' : Traversal), t.read (clip frame) s = (t', some next) →
      next.layer.isTurn = false ∧ s.offset < next.offset ∧ Traversal.RecordsAt s t t') ∧
    (∀ (s next : Station) (t t' : Traversal), t.step (clip frame) s = (t', some next) →
      next.layer.isTurn = true → s.layer = .ipv6 ∨ s.layer.isTurn = true) ∧
    (∀ (kind : Ipv6Extension) (offset : Nat),
      8 ≤ kind.length ((clip frame).drop offset) ∧
      ∀ (t t' : Traversal) (next : Station),
        t.step (clip frame) ⟨.ipv6Extension kind, offset⟩ = (t', some next) →
        next.offset = offset + kind.length ((clip frame).drop offset)) ∧
    nestedTraversal 17 frame = some (traversal frame) := by
  refine ⟨fun above s t h => ?_, fun s next t t' h => Traversal.of_read_calls h,
    fun s next t t' h => ?_, fun kind offset => ⟨?_, fun t t' next h => ?_⟩,
    nestedTraversal_eq frame⟩
  · exact ⟨h.run_eq, h.length_le (length_clip_le frame), h.descending, fun a => h.recorded⟩
  · exact Layer.eq_ipv6_of_announces_turn (Traversal.announces_of_step (by rw [h]))
  · exact kind.minLength_le_length _
  · exact Traversal.offset_of_turn h

end IndexedFrame

end FrameIndex
