import FrameIndex.Proofs.Traversal.OptionAreas

/-!
# What actions keep

A step does what its plan says, one action after another. So what every single action keeps, a step
keeps (`Traversal.step_keeps`) and a run keeps (`Traversal.run_keeps`). What an action may change
depends on the layer that it belongs to (`Traversal.Does`).
-/

namespace FrameIndex

namespace Traversal

variable {t : Traversal} {data : Bytes} {s : Station} {next : Option Station} {a : Action}
  {rest : List Action}

def optionNotes (idOf : Nat → HeaderId) (offset : Nat) : List OptionSpan → List Action
  | [] => []
  | span :: rest =>
    .note (idOf span.kind) offset span.length :: optionNotes idOf (offset + span.length) rest

theorem exists_eq_note_of_mem {idOf : Nat → HeaderId} {offset : Nat} {spans : List OptionSpan}
    (h : a ∈ optionNotes idOf offset spans) :
    ∃ kind offset length, a = .note (idOf kind) offset length := by
  induction spans generalizing offset with
  | nil => cases h
  | cons span rest ih =>
    rcases List.mem_cons.1 h with rfl | h
    · exact ⟨span.kind, offset, span.length, rfl⟩
    · exact ih h

theorem noteOptions_eq_carryOut (t : Traversal) (idOf : Nat → HeaderId) (offset : Nat)
    (spans : List OptionSpan) :
    t.noteOptions idOf offset spans = (t.carryOut none (optionNotes idOf offset spans)).1 := by
  induction spans generalizing t offset with
  | nil => rfl
  | cons span rest ih =>
    rw [noteOptions, optionNotes, carryOut, act]
    rcases t.note (idOf span.kind) offset span.length with ⟨t', _ | _⟩
    · rfl
    · exact ih t' (offset + span.length)

/-! ## What single actions keep -/

section

variable {P : Traversal → Prop} {actions : List Action}

theorem carryOut_keeps (hact : ∀ a ∈ actions, ∀ t, P t → P (t.act a).1) (h : P t) :
    P (t.carryOut next actions).1 := by
  induction actions generalizing t with
  | nil => exact h
  | cons a rest ih =>
    have hkept := hact a List.mem_cons_self t h
    rw [carryOut]
    rcases hdone : t.act a with ⟨t', goes⟩
    rw [hdone] at hkept
    cases goes with
    | true => exact ih (fun b hb => hact b (List.mem_cons_of_mem a hb)) hkept
    | false => exact hkept

theorem step_keeps (hact : ∀ a ∈ (plan data s).actions, ∀ t, P t → P (t.act a).1) (h : P t) :
    P (t.step data s).1 := by
  rw [step_eq_carryOut]
  exact carryOut_keeps hact h

theorem run_keeps (hact : ∀ s, ∀ a ∈ (plan data s).actions, ∀ t, P t → P (t.act a).1) (h : P t) :
    P (t.run data s) := by
  have hstep (s : Station) (t : Traversal) (ht : P t) :
      Outcome (fun _ => P) P (t.step data s) :=
    outcome_const_iff.2 (step_keeps (hact s) ht)
  exact run_of_step hstep h

end

/-! ## What single actions change -/

/-- With more records, and perhaps one refused. Noting changes nothing else. -/
def grown (t : Traversal) (more : List HeaderRecord) (refused : Option LayoutError) : Traversal :=
  { t with draft := { t.draft with records := t.draft.records ++ more }, refused }

theorem exists_note_eq (t : Traversal) (id : HeaderId) (offset length : Nat) :
    ∃ more refused, (t.note id offset length).1 = t.grown more refused ∧ ∀ r ∈ more, r.id = id := by
  rcases t.note_cases id offset length with ⟨-, -, hnote⟩ | ⟨-, refused, -, hnote⟩
  · rw [hnote]
    refine ⟨[Type2.Draft.recordOf id offset length], t.refused, rfl, fun r hr => ?_⟩
    rw [List.mem_singleton.1 hr]
    rfl
  · rw [hnote]
    exact ⟨[], refused, by simp [grown], List.forall_mem_nil _⟩

theorem exists_noteOptions_eq (t : Traversal) (idOf : Nat → HeaderId) (offset : Nat)
    (spans : List OptionSpan) :
    ∃ more refused, t.noteOptions idOf offset spans = t.grown more refused ∧
      ∀ r ∈ more, ∃ kind, r.id = idOf kind := by
  induction spans generalizing t offset with
  | nil => exact ⟨[], t.refused, by simp [noteOptions, grown], List.forall_mem_nil _⟩
  | cons span rest ih =>
    obtain ⟨more, refused, hnote, hids⟩ := t.exists_note_eq (idOf span.kind) offset span.length
    have hkinds : ∀ r ∈ more, ∃ kind, r.id = idOf kind := fun r hr => ⟨span.kind, hids r hr⟩
    rw [noteOptions]
    rcases hdone : t.note (idOf span.kind) offset span.length with ⟨t', taken⟩
    rw [hdone] at hnote
    cases taken with
    | false => exact ⟨more, refused, hnote, hkinds⟩
    | true =>
      obtain ⟨more', refused', hrest, hkinds'⟩ := ih t' (offset + span.length)
      have hnote : t' = t.grown more refused := hnote
      refine ⟨more ++ more', refused', hrest.trans ?_, fun r hr => ?_⟩
      · rw [hnote, grown, grown, grown, List.append_assoc]
      · rcases List.mem_append.1 hr with hr | hr
        · exact hkinds r hr
        · exact hkinds' r hr

def Action.Names (p : HeaderId → Prop) : Action → Prop
  | .note id _ _ => p id
  | .noteOptions idOf _ _ => ∀ kind, p (idOf kind)
  | .frame _ | .describe _ => True

/-- The second traversal has the records of the first, and others whose identifiers have the
property. -/
def Adds (p : HeaderId → Prop) (t u : Traversal) : Prop :=
  ∃ more, u.draft.records = t.draft.records ++ more ∧ ∀ r ∈ more, p r.id

section

variable {p : HeaderId → Prop} {u v : Traversal}

theorem Adds.refl (t : Traversal) : t.Adds p t :=
  ⟨[], (List.append_nil _).symm, List.forall_mem_nil _⟩

theorem Adds.trans (h : t.Adds p u) (h' : u.Adds p v) : t.Adds p v := by
  obtain ⟨more, hu, hids⟩ := h
  obtain ⟨more', hv, hids'⟩ := h'
  refine ⟨more ++ more', by rw [hv, hu, List.append_assoc], fun r hr => ?_⟩
  rcases List.mem_append.1 hr with hr | hr
  · exact hids r hr
  · exact hids' r hr

theorem Adds.isPrefix (h : t.Adds p u) : t.draft.records <+: u.draft.records := by
  obtain ⟨more, hmore, -⟩ := h
  exact ⟨more, hmore.symm⟩

theorem act_cases (ha : a.Names p) (t : Traversal) :
    (∃ framing, a = .frame framing ∧ (t.act a).1 = t.framed framing) ∨
    (∃ fragment, a = .describe fragment ∧ (t.act a).1 = { t with fragment := some fragment }) ∨
    ∃ more refused, (t.act a).1 = t.grown more refused ∧ ∀ r ∈ more, p r.id := by
  cases a with
  | frame framing => exact .inl ⟨framing, rfl, rfl⟩
  | describe fragment => exact .inr (.inl ⟨fragment, rfl, rfl⟩)
  | note id offset length =>
    obtain ⟨more, refused, hnote, hids⟩ := t.exists_note_eq id offset length
    exact .inr (.inr ⟨more, refused, hnote, fun r hr => (hids r hr).symm ▸ ha⟩)
  | noteOptions idOf offset spans =>
    obtain ⟨more, refused, hnote, hids⟩ := t.exists_noteOptions_eq idOf offset spans
    refine .inr (.inr ⟨more, refused, hnote, fun r hr => ?_⟩)
    obtain ⟨kind, hkind⟩ := hids r hr
    exact hkind ▸ ha kind

theorem Action.names_true (a : Action) : a.Names fun _ => True := by
  cases a <;> simp [Names]

theorem adds_act (ha : a.Names p) (t : Traversal) : t.Adds p (t.act a).1 := by
  rcases act_cases ha t with ⟨framing, -, hact⟩ | ⟨fragment, -, hact⟩ | ⟨more, refused, hact, hids⟩
  · exact hact ▸ Adds.refl t
  · exact hact ▸ Adds.refl t
  · exact hact ▸ ⟨more, rfl, hids⟩

theorem fragment_act (ha : ∀ f, a ≠ .describe f) (t : Traversal) :
    (t.act a).1.fragment = t.fragment := by
  rcases act_cases a.names_true t with ⟨_, -, hact⟩ | ⟨f, rfl, -⟩ | ⟨_, _, hact, -⟩
  · rw [hact]
    rfl
  · exact absurd rfl (ha f)
  · rw [hact]
    rfl

theorem framing_act (ha : ∀ f, a ≠ .frame f) (t : Traversal) :
    (t.act a).1.draft.framing = t.draft.framing := by
  rcases act_cases a.names_true t with ⟨f, rfl, -⟩ | ⟨_, -, hact⟩ | ⟨_, _, hact, -⟩
  · exact absurd rfl (ha f)
  · rw [hact]
  · rw [hact]
    rfl

end

/-! ## What is done at a layer -/

/-- What may be done at a layer: only link layers say how the frame is framed, and only IPv4 and the
fragment header of IPv6 describe fragments. -/
def Does (layer : Layer) : Action → Prop
  | .frame _ => layer = .ethernet ∨ layer = .llc
  | .note id _ _ => id ∈ layer.ids
  | .noteOptions idOf _ _ =>
    layer = .ipv4 ∧ idOf = HeaderId.ipv4Option ∨ layer = .tcp ∧ idOf = HeaderId.tcpOption
  | .describe _ => layer = .ipv4 ∨ layer = .ipv6Extension .fragment

theorem Does.names {layer : Layer} {a : Action} {p : HeaderId → Prop} (h : Does layer a)
    (hids : ∀ id ∈ layer.ids, p id) (hipv4 : ∀ kind, p (HeaderId.ipv4Option kind))
    (htcp : ∀ kind, p (HeaderId.tcpOption kind)) : a.Names p := by
  cases a with
  | note id offset length => exact hids id h
  | noteOptions idOf offset spans =>
    rcases h with ⟨-, rfl⟩ | ⟨-, rfl⟩
    · exact hipv4
    · exact htcp
  | frame | describe => trivial

theorem Does.ne_describe {layer : Layer} {a : Action} (h : Does layer a) (hipv4 : layer ≠ .ipv4)
    (hheader : layer ≠ .ipv6Extension .fragment) (f : FragmentPlace) : a ≠ .describe f := by
  rintro rfl
  exact h.elim hipv4 hheader

theorem Does.ne_frame {layer : Layer} {a : Action} (h : Does layer a)
    (hethernet : layer ≠ .ethernet) (hllc : layer ≠ .llc) (f : LinkFraming) : a ≠ .frame f := by
  rintro rfl
  exact h.elim hethernet hllc

theorem Action.IsRemark.does {layer : Layer} (h : a.IsRemark layer) : Does layer a := by
  cases a with
  | frame | describe => exact h
  | note | noteOptions => exact h.elim

theorem Adjoins.does {start : Nat} {actions : List Action} (h : Adjoins data s start actions next) :
    ∀ a ∈ actions, Does s.layer a := by
  induction h with
  | done goes => exact List.forall_mem_nil _
  | remark remark behind ih => exact List.forall_mem_cons.2 ⟨remark.does, ih⟩
  | header id_mem pos stop_le behind ih => exact List.forall_mem_cons.2 ⟨id_mem, ih⟩
  | optioned id_mem pos stop_le owns behind ih =>
    exact List.forall_mem_cons.2 ⟨id_mem, List.forall_mem_cons.2 ⟨owns, ih⟩⟩

theorem does_of_mem_plan (ha : a ∈ (plan data s).actions) : Does s.layer a :=
  Adjoins.does (fits_plan data s) a ha

end Traversal

end FrameIndex
