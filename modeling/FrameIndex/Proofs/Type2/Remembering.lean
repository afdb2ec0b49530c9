import FrameIndex.Proofs.HeaderIndex.Bounds
import FrameIndex.Proofs.Type2.Refusals
import FrameIndex.Type2.Reads
import Mathlib.Data.List.Induction

/-!
# What is remembered never outlives its bytes

However often a descriptor is bound, refused bytes, unbound and read, what is remembered of it is
what its bytes say (`Type2.Memo.Agrees`), because a read keeps what it derived and other bytes start
afresh. So a read answers as that of a new descriptor that is bound to the bytes which were accepted
last, or as that of an unbound one (`Type2.reads_as_fresh`).
-/

namespace FrameIndex

namespace Type2

/-! ## Reads -/

namespace Memo

theorem image_records (m : Memo) : m.records.1.image = m.image := by
  unfold records
  split <;> rfl

theorem image_presence (m : Memo) : m.presence.1.image = m.image := by
  unfold presence
  split <;> rfl

theorem image_hash (m : Memo) : m.hash.1.image = m.image := by
  unfold hash
  split <;> rfl

/-- The descriptor has the same bytes, and what is remembered is what they say. -/
structure Agrees (m : Memo) (d : Descriptor) : Prop where
  layout_eq : d.layout = .type2
  image_eq : m.image = d.image
  sound : m.Sound

end Memo

/-- The read has the answer, and what it leaves still agrees with the descriptor. -/
structure Answers {α : Type} (d : Descriptor) (out : Memo × α) (a : α) : Prop where
  answer_eq : out.2 = a
  agrees : out.1.Agrees d

namespace Memo.Agrees

variable {α : Type} {m : Memo} {d : Descriptor}

theorem bytes_eq (h : m.Agrees d) : m.bytes = d.bytes :=
  congrArg (Option.getD · []) h.image_eq

theorem index_eq (h : m.Agrees d) : d.index = Descriptor.indexOf .type2 m.bytes := by
  rw [Descriptor.index, h.layout_eq, h.bytes_eq]

theorem layout_index (h : m.Agrees d) : d.index.layout = .type2 := by
  rw [h.index_eq]
  rfl

theorem captureLength_eq (h : m.Agrees d) :
    Type2.captureLength m.bytes = d.index.captureLength := by
  rw [h.index_eq]
  rfl

theorem ofDerived (h : m.Agrees d) {out : Memo × α} {derive : Bytes → α}
    (himage : out.1.image = m.image) (hsound : out.1.Sound)
    (hunbound : m.image = none → out.2 = derive [])
    (hbound : ∀ bs, m.image = some bs → out.2 = derive bs) :
    Answers d out (derive d.bytes) := by
  refine ⟨?_, h.layout_eq, himage.trans h.image_eq, hsound⟩
  rw [← h.bytes_eq, bytes]
  cases hm : m.image with
  | none => exact hunbound hm
  | some bs => exact hbound bs hm

theorem records (h : m.Agrees d) : Answers d m.records d.index.records := by
  rw [h.index_eq, h.bytes_eq]
  show Answers d m.records (Type2.records d.bytes)
  apply h.ofDerived m.image_records (sound_records h.sound)
  · intro hunbound
    rw [Memo.records, hunbound]
    rfl
  · intro bs hbound
    exact (h.sound.readsAs hbound).records_eq

theorem presence (h : m.Agrees d) : Answers d m.presence d.index.presence := by
  rw [h.index_eq, h.bytes_eq]
  show Answers d m.presence (Type2.presence d.bytes)
  apply h.ofDerived m.image_presence (sound_presence h.sound)
  · intro hunbound
    rw [Memo.presence, hunbound]
    rfl
  · intro bs hbound
    exact (h.sound.readsAs hbound).presence_eq

theorem hash (h : m.Agrees d) : Answers d m.hash (flowHash d.bytes) := by
  apply h.ofDerived m.image_hash (sound_hash h.sound)
  · intro hunbound
    rw [Memo.hash, hunbound]
    rfl
  · intro bs hbound
    exact (h.sound.readsAs hbound).hash_eq

theorem ofRecords (h : m.Agrees d) (read : List HeaderRecord → α) :
    Answers d (m.ofRecords read) (read d.index.records) :=
  ⟨congrArg read h.records.answer_eq, h.records.agrees⟩

theorem recordOf? (h : m.Agrees d) (id : HeaderId) (depth : Nat) :
    Answers d (m.recordOf? id depth) (d.index.recordOf? id depth) := by
  obtain ⟨hpresence, hafter⟩ := h.presence
  unfold Memo.recordOf? HeaderIndex.recordOf?
  rcases hout : m.presence with ⟨m', presence⟩
  rw [hout] at hpresence hafter
  simp only at hpresence hafter ⊢
  rw [← hpresence]
  split
  · exact ⟨rfl, hafter⟩
  · exact hafter.ofRecords _

theorem found (h : m.Agrees d) (index : Option Nat) :
    Answers d (m.found index) (index.bind d.index.recorded?) := by
  cases index with
  | none => exact ⟨rfl, h⟩
  | some index =>
    show Answers d (m.found (some index)) (d.index.recorded? index)
    rw [HeaderIndex.recorded?, h.layout_index]
    exact h.ofRecords fun records => records[index]?.map fun r : HeaderRecord =>
      (⟨r.start, r.size, some index, .type2⟩ : Placement)

theorem header? (h : m.Agrees d) (id : HeaderId) (depth : Nat) :
    Answers d (m.header? id depth) (d.index.header? id depth) := by
  unfold Memo.header? HeaderIndex.header?
  split
  · exact ⟨rfl, h⟩
  · obtain ⟨hindex, hafter⟩ := h.recordOf? id depth
    rcases hout : m.recordOf? id depth with ⟨m', index⟩
    rw [hout] at hindex hafter
    simp only at hindex hafter ⊢
    rw [← hindex]
    exact hafter.found index

theorem parent? (h : m.Agrees d) (id : HeaderId) (depth : Nat) (hint : Option Nat) :
    Answers d (m.parent? id depth hint) (d.index.parent? id depth hint) := by
  cases hint with
  | none => exact h.recordOf? id depth
  | some index => exact h.ofRecords fun records => if index < records.length then some index else none

theorem extension? (h : m.Agrees d) (id ext : HeaderId) (depth : Nat) (hint : Option Nat) :
    Answers d (m.extension? id ext depth hint) (d.index.extension? id ext depth hint) := by
  unfold Memo.extension? HeaderIndex.extension?
  obtain ⟨hrecords, hread⟩ := h.records
  rcases hout : m.records with ⟨m', records⟩
  rw [hout] at hrecords hread
  simp only at hrecords hread ⊢
  obtain ⟨hparent, hafter⟩ := hread.parent? id depth hint
  rcases hout : m'.parent? id depth hint with ⟨m'', parent⟩
  rw [hout] at hparent hafter
  simp only at hparent hafter ⊢
  rw [← hparent, ← hrecords]
  cases parent with
  | none => exact ⟨rfl, hafter⟩
  | some parent =>
    simp only [Option.bind_some]
    split
    · refine ⟨?_, hafter⟩
      simp only [HeaderIndex.restFrom, hafter.captureLength_eq, hafter.layout_index]
    · exact hafter.found _

theorem byteSize_eq (h : m.Agrees d) : m.byteSize = d.byteSize := by
  obtain ⟨layout, image, accepted⟩ := d
  obtain rfl : layout = .type2 := h.layout_eq
  have himage : m.image = image := h.image_eq
  rw [byteSize, himage]
  cases image <;> rfl

theorem read (h : m.Agrees d) (r : Read α) : Answers d (m.read r) (d.read r) := by
  have hindex := h.index_eq
  cases r with
  | image => exact ⟨h.image_eq, h⟩
  | isBound => exact ⟨congrArg Option.isSome h.image_eq, h⟩
  | byteSize => exact ⟨h.byteSize_eq, h⟩
  | captureLength => exact ⟨h.captureLength_eq, h⟩
  | wireLength | timestamp =>
    refine ⟨?_, h⟩
    rw [Descriptor.read, hindex]
    rfl
  | rxPort | txPort | framing | color | flags | statedCount =>
    refine ⟨?_, h⟩
    rw [Descriptor.read, ← h.bytes_eq]
    rfl
  | hash => exact h.hash
  | presence => exact h.presence
  | records => exact h.records
  | recordCount => exact h.ofRecords List.length
  | record index => exact h.ofRecords fun records => records[index]?
  | options parent => exact h.ofRecords fun records => HeaderRecord.optionRun? records parent
  | payloadStart => exact h.ofRecords fun records => (records.getLast?.map (·.stop)).getD 0
  | header id depth => exact h.header? id depth
  | extension id ext depth hint => exact h.extension? id ext depth hint

end Memo.Agrees

theorem read_unbound {α : Type} (r : Read α) :
    (Descriptor.unbound .type2).read r = r.default := by
  have hrecords : (Descriptor.unbound .type2).index.records = [] := rfl
  cases r with
  | header id depth => exact HeaderIndex.header?_of_records_eq_nil hrecords id depth
  | extension id ext depth hint =>
    exact HeaderIndex.extension?_of_records_eq_nil hrecords id ext depth hint
  | _ => rfl

/-! ## Actions -/

theorem act_bind_cases {d : Descriptor} (hlayout : d.layout = .type2) (bs : Bytes) :
    Accepted bs ∧ (d.act (.bind bs)).layout = .type2 ∧ (d.act (.bind bs)).image = some bs ∨
      (∃ e, Refused bs e) ∧ d.act (.bind bs) = d := by
  have hact : d.act (.bind bs) = (d.bind bs).toOption.getD d := rfl
  have hresult := d.map_bind bs
  cases hbind : d.bind bs with
  | ok d' =>
    obtain ⟨hcheck, hlayout', himage⟩ := Descriptor.ofBytes_eq_ok_iff.1 hbind
    rw [hlayout] at hcheck hlayout'
    rw [hact, hbind]
    exact .inl ⟨accepted_iff.1 hcheck, hlayout', himage⟩
  | error e =>
    rw [hbind, hlayout] at hresult
    rw [hact, hbind]
    exact .inr ⟨⟨e, refused_iff.1 hresult.symm⟩, rfl⟩

theorem Memo.Agrees.act {m : Memo} {d : Descriptor} (h : m.Agrees d) (a : Action) :
    (m.act a).Agrees (d.act a) := by
  cases a with
  | bind bs =>
    rcases act_bind_cases h.layout_eq bs with ⟨haccepted, hlayout, himage⟩ | ⟨⟨e, hrefused⟩, hact⟩
    · refine ⟨hlayout, ?_, Memo.sound_bind h.sound bs⟩
      rw [himage, Memo.act, m.fst_bind_of_accepted haccepted]
    · rw [hact, Memo.act, m.fst_bind_of_refused hrefused]
      exact h
  | unbind => exact ⟨h.layout_eq, rfl, m.sound_unbind⟩
  | read r => exact (h.read r).agrees

theorem Memo.Agrees.run {m : Memo} {d : Descriptor} (h : m.Agrees d) (actions : List Action) :
    (m.run actions).Agrees (d.run actions) := by
  induction actions generalizing m d with
  | nil => exact h
  | cons a rest ih => exact ih (h.act a)

theorem agrees_run (actions : List Action) :
    (({} : Memo).run actions).Agrees ((Descriptor.unbound .type2).run actions) :=
  Memo.Agrees.run ⟨rfl, rfl, Memo.sound_unbind {}⟩ actions

/-- An action that leaves the bytes as they are: a read, or a binding that is refused. -/
def Action.Keeps : Action → Prop
  | .bind bs => ¬ Accepted bs
  | .unbind => False
  | .read _ => True

/-- The bytes are those that were accepted last, and they were not let go of since. -/
def LastAccepted (actions : List Action) (bs : Bytes) : Prop :=
  ∃ before after, actions = before ++ .bind bs :: after ∧ Accepted bs ∧ ∀ a ∈ after, a.Keeps

theorem lastAccepted_concat {actions : List Action} {a : Action} {bs : Bytes} :
    LastAccepted (actions ++ [a]) bs ↔
      a = .bind bs ∧ Accepted bs ∨ a.Keeps ∧ LastAccepted actions bs := by
  constructor
  · rintro ⟨before, after, hsplit, haccepted, hkeeps⟩
    rcases after.eq_nil_or_concat with rfl | ⟨front, last, rfl⟩
    · obtain ⟨-, ha⟩ := List.append_inj' hsplit rfl
      exact .inl ⟨List.singleton_inj.1 ha, haccepted⟩
    · rw [List.concat_eq_append] at hsplit hkeeps
      rw [← List.cons_append, ← List.append_assoc] at hsplit
      obtain ⟨hfront, ha⟩ := List.append_inj' hsplit rfl
      obtain rfl := List.singleton_inj.1 ha
      refine .inr ⟨hkeeps a (by simp), before, front, hfront, haccepted, fun b hb => ?_⟩
      exact hkeeps b (List.mem_append_left _ hb)
  · rintro (⟨rfl, haccepted⟩ | ⟨hlast, before, after, rfl, haccepted, hkeeps⟩)
    · exact ⟨actions, [], rfl, haccepted, List.forall_mem_nil _⟩
    · refine ⟨before, after ++ [a], by simp, haccepted, fun b hb => ?_⟩
      rcases List.mem_append.1 hb with hb | hb
      · exact hkeeps b hb
      · rw [List.mem_singleton.1 hb]
        exact hlast

theorem image_act_eq_some_iff {d : Descriptor} (hlayout : d.layout = .type2) (a : Action)
    {bs : Bytes} :
    (d.act a).image = some bs ↔ a = .bind bs ∧ Accepted bs ∨ a.Keeps ∧ d.image = some bs := by
  cases a with
  | bind bs' =>
    rcases act_bind_cases hlayout bs' with ⟨haccepted, -, himage⟩ | ⟨⟨e, hrefused⟩, hact⟩
    · rw [himage]
      constructor
      · rintro ⟨⟩
        exact .inl ⟨rfl, haccepted⟩
      · rintro (⟨⟨⟩, -⟩ | ⟨hkeeps, -⟩)
        · rfl
        · exact absurd haccepted hkeeps
    · have hnot : ¬ Accepted bs' := fun haccepted => by
        have hcheck := hrefused.check_eq
        rw [accepted_iff.2 haccepted] at hcheck
        cases hcheck
      rw [hact]
      constructor
      · intro h
        exact .inr ⟨hnot, h⟩
      · rintro (⟨⟨⟩, haccepted⟩ | ⟨-, h⟩)
        · exact absurd haccepted hnot
        · exact h
  | unbind => simp [Descriptor.act, Descriptor.unbind, Descriptor.unbound, Action.Keeps]
  | read r => simp [Descriptor.act, Action.Keeps]

/-- After some actions a descriptor is bound to the bytes that were accepted last. -/
theorem image_run_eq_some_iff (actions : List Action) (bs : Bytes) :
    ((Descriptor.unbound .type2).run actions).image = some bs ↔ LastAccepted actions bs := by
  induction actions using List.reverseRecOn generalizing bs with
  | nil =>
    refine ⟨fun h => (nomatch h), ?_⟩
    rintro ⟨before, after, hsplit, -⟩
    exact absurd hsplit (by simp)
  | append_singleton actions a ih =>
    rw [lastAccepted_concat, ← ih, Descriptor.run, List.foldl_append]
    exact image_act_eq_some_iff (agrees_run actions).layout_eq a

/-- **What is read never outlives its bytes.** After any binding, letting go and reading, in
whatever order and with whatever result, every read answers as that of a new descriptor: of one that
is bound to the bytes which were accepted last, unless these were let go of since, and else of one
that is not bound. -/
theorem reads_as_fresh (actions : List Action) {α : Type} (r : Read α) :
    let answer := ((({} : Memo).run actions).read r).2
    (∃ bs d, (∀ bs', LastAccepted actions bs' ↔ bs' = bs) ∧
      (Descriptor.unbound .type2).bind bs = .ok d ∧ answer = d.read r ∧
      answer = ((({} : Memo).bind bs).1.read r).2) ∨
    (∀ bs, ¬ LastAccepted actions bs) ∧
      answer = (Descriptor.unbound .type2).read r ∧ answer = r.default := by
  intro answer
  have hagrees := agrees_run actions
  have hanswer : answer = ((Descriptor.unbound .type2).run actions).read r :=
    (hagrees.read r).answer_eq
  have himage := image_run_eq_some_iff actions
  cases hbound : ((Descriptor.unbound .type2).run actions).image with
  | none =>
    have hunbound : (Descriptor.unbound .type2).run actions = .unbound .type2 :=
      Descriptor.ext hagrees.layout_eq hbound
    rw [hunbound] at hanswer
    refine .inr ⟨fun bs hlast => ?_, hanswer, hanswer.trans (read_unbound r)⟩
    rw [(himage bs).2 hlast] at hbound
    cases hbound
  | some bs =>
    have hcheck := ((Descriptor.unbound .type2).run actions).accepted bs hbound
    rw [hagrees.layout_eq] at hcheck
    have hfresh : (({} : Memo).bind bs).1.Agrees ((Descriptor.unbound .type2).run actions) := by
      refine ⟨hagrees.layout_eq, ?_, Memo.sound_bind (Memo.sound_unbind {}) bs⟩
      rw [Memo.fst_bind_of_accepted {} (accepted_iff.1 hcheck), hbound]
    refine .inl ⟨bs, _, fun bs' => ?_, ?_, hanswer, ?_⟩
    · rw [← himage, hbound, Option.some.injEq, eq_comm]
    · exact Descriptor.ofBytes_eq_ok_iff.2 ⟨hcheck, hagrees.layout_eq, hbound⟩
    · rw [hanswer, (hfresh.read r).answer_eq]

end Type2

end FrameIndex
