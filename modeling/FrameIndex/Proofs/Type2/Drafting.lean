import FrameIndex.Type2.Draft
import Mathlib.Tactic.SplitIfs

/-!
# What a draft takes

A record is taken exactly if there is room for it, it ends within the captured bytes, and it is not
an option in front of all headers (`Draft.pushWithin_eq_ok_iff`). So every draft that is put
together by calls is `Draft.Sound`, and its records are those of the accepted pushes since the last
reset (`Draft.map_entry_run`), whatever is set in between.
-/

namespace FrameIndex

namespace Type2

namespace Draft

/-- A record with an offset and a length that fit in 16 bits each. -/
def recordOf (id : HeaderId) (offset length : Nat) : HeaderRecord :=
  ⟨id, UInt16.ofNat offset, UInt16.ofNat length⟩

theorem start_recordOf {id : HeaderId} {offset length : Nat} (h : offset < 65536) :
    (recordOf id offset length).start = offset := by
  rw [recordOf, HeaderRecord.start, UInt16.toNat_ofNat', Nat.mod_eq_of_lt h]

theorem size_recordOf {id : HeaderId} {offset length : Nat} (h : length < 65536) :
    (recordOf id offset length).size = length := by
  rw [recordOf, HeaderRecord.size, UInt16.toNat_ofNat', Nat.mod_eq_of_lt h]

variable {d d' : Draft} {limit : Option Nat} {id : HeaderId} {offset length : Nat}

/-! ## Taking a record -/

/-- The conditions on the next record of a draft. -/
structure Takes (d : Draft) (limit : Option Nat) (id : HeaderId) (offset length : Nat) : Prop where
  room : ∀ n, limit = some n → d.records.length < n
  stop_le : offset + length ≤ d.captureLength.toNat
  owned : id.isOption = true → d.records ≠ []

theorem Takes.start_eq (h : d.Takes limit id offset length) :
    (recordOf id offset length).start = offset := by
  have := h.stop_le
  have := d.captureLength.toNat_lt
  exact start_recordOf (by omega)

theorem Takes.size_eq (h : d.Takes limit id offset length) :
    (recordOf id offset length).size = length := by
  have := h.stop_le
  have := d.captureLength.toNat_lt
  exact size_recordOf (by omega)

theorem accept?_eq_ok_iff {r : HeaderRecord} :
    d.accept? limit id offset length = .ok r ↔
      d.Takes limit id offset length ∧ r = recordOf id offset length := by
  unfold accept?
  split_ifs with hroom hstop howned
  · simp only [false_iff, not_and]
    intro htakes
    obtain ⟨n, hn, hle⟩ := (Option.any_eq_true _ _).1 hroom
    have := htakes.room n hn
    simp only [decide_eq_true_eq] at hle
    omega
  · simp only [false_iff, not_and]
    intro htakes
    have := htakes.stop_le
    omega
  · simp only [false_iff, not_and]
    intro htakes
    rw [Bool.and_eq_true, List.isEmpty_iff] at howned
    exact absurd howned.2 (htakes.owned howned.1)
  · have htakes : d.Takes limit id offset length := by
      refine ⟨fun n hn => Nat.lt_of_not_le fun hle => hroom ?_, by omega,
        fun hoption hrecords => howned ?_⟩
      · exact (Option.any_eq_true _ _).2 ⟨n, hn, decide_eq_true hle⟩
      · rw [hoption, hrecords]
        rfl
    simp only [htakes, true_and, Except.ok.injEq]
    exact eq_comm

theorem pushWithin_eq_ok_iff :
    d.pushWithin limit id offset length = .ok d' ↔
      d.Takes limit id offset length ∧
        d' = { d with records := d.records ++ [recordOf id offset length] } := by
  unfold pushWithin
  cases h : d.accept? limit id offset length with
  | error e =>
    have hnot : ¬ d.Takes limit id offset length := fun htakes => by
      simp [accept?_eq_ok_iff.2 ⟨htakes, rfl⟩] at h
    simp [Except.map, hnot]
  | ok r =>
    obtain ⟨htakes, rfl⟩ := accept?_eq_ok_iff.1 h
    simp only [Except.map, Except.ok.injEq, htakes, true_and]
    exact eq_comm

/-! ## Sound drafts -/

/-- What all drafts have in common: not too many records, each within the captured bytes, and the
first of them not an option. -/
structure Sound (limit : Option Nat) (d : Draft) : Prop where
  count : ∀ n, limit = some n → d.records.length ≤ n
  within : ∀ r ∈ d.records, r.stop ≤ d.captureLength.toNat
  headed : ∀ r, d.records.head? = some r → r.id.isOption = false

theorem Sound.pushWithin (h : d.Sound limit)
    (hpush : d.pushWithin limit id offset length = .ok d') : d'.Sound limit := by
  obtain ⟨htakes, rfl⟩ := pushWithin_eq_ok_iff.1 hpush
  constructor
  case count =>
    intro n hn
    have := htakes.room n hn
    simp only [List.length_append, List.length_singleton]
    omega
  case within =>
    intro r hr
    rcases List.mem_append.1 hr with hr | hr
    · exact h.within r hr
    · rw [List.mem_singleton.1 hr, HeaderRecord.stop, htakes.start_eq, htakes.size_eq]
      exact htakes.stop_le
  case headed =>
    intro r hr
    cases hrecords : d.records with
    | nil =>
      simp only [hrecords, List.nil_append, List.head?_cons, Option.some.injEq] at hr
      subst hr
      exact Bool.eq_false_iff.2 fun hoption => htakes.owned hoption hrecords
    | cons first rest =>
      simp only [hrecords, List.cons_append, List.head?_cons] at hr
      exact h.headed r (by rw [hrecords, List.head?_cons, hr])

theorem sound_of_records_eq_nil (h : d.records = []) : d.Sound limit := by
  constructor <;> simp [h]

/-! ## Runs of calls -/

inductive Setting where
  | wireLength (n : UInt16)
  | timestamp (n : UInt64)
  | rxPort (n : UInt8)
  | txPort (n : UInt8)
  | framing (f : LinkFraming)
  | color (n : UInt8)
  | flags (n : UInt16)
  | hash (type : FlowHashType) (low : UInt32)
  | presence (n : UInt32)

def set (d : Draft) : Setting → Draft
  | .wireLength n => { d with wireLength := some n }
  | .timestamp n => { d with timestamp := n }
  | .rxPort n => { d with rxPort := n }
  | .txPort n => { d with txPort := n }
  | .framing f => { d with framing := f }
  | .color n => { d with color := n }
  | .flags n => { d with flags := n }
  | .hash type low => { d with hashType := type, hash24 := low }
  | .presence n => { d with presence := some n }

inductive Call where
  | set (s : Setting)
  | push (id : HeaderId) (offset length : Nat)
  | reset

/-- The draft after a call, and the answer: the index of a record that was pushed. -/
def call (d : Draft) : Call → Draft × Except LayoutError (Option Nat)
  | .set s => (d.set s, .ok none)
  | .push id offset length =>
    match d.push id offset length with
    | .ok d' => (d', .ok (some d.records.length))
    | .error refusal => (d, .error refusal)
  | .reset => (d.reset, .ok none)

def run (d : Draft) : List Call → Draft × List (Call × Except LayoutError (Option Nat))
  | [] => (d, [])
  | c :: rest =>
    let (d', log) := (d.call c).1.run rest
    (d', (c, (d.call c).2) :: log)

def Call.setting? : Call → Option Setting
  | .set s => some s
  | _ => none

/-- What the settings of a run of calls make of a new draft. -/
def metadata (captureLength : UInt16) (calls : List Call) : Draft :=
  (calls.filterMap Call.setting?).foldl set { captureLength }

/-- What has been put in after one more call and its answer. -/
def put (kept : List (HeaderId × Nat × Nat)) :
    Call × Except LayoutError (Option Nat) → List (HeaderId × Nat × Nat)
  | (.push id offset length, .ok _) => kept ++ [(id, offset, length)]
  | (.push _ _ _, .error _) => kept
  | (.reset, _) => []
  | (.set _, _) => kept

/-- What the calls of a log have put in: the accepted pushes since the last reset. -/
def puts (log : List (Call × Except LayoutError (Option Nat))) : List (HeaderId × Nat × Nat) :=
  log.foldl put []

def entry (r : HeaderRecord) : HeaderId × Nat × Nat := (r.id, r.start, r.size)

theorem entry_recordOf (h : d.Takes limit id offset length) :
    entry (recordOf id offset length) = (id, offset, length) := by
  rw [entry, h.start_eq, h.size_eq]
  rfl

theorem call_push_of_takes (h : d.Takes (some maxRecords) id offset length) :
    d.call (.push id offset length) =
      ({ d with records := d.records ++ [recordOf id offset length] },
        .ok (some d.records.length)) := by
  have hpush : d.push id offset length = .ok _ := pushWithin_eq_ok_iff.2 ⟨h, rfl⟩
  simp only [call, hpush]

theorem call_push_of_not_takes (h : ¬ d.Takes (some maxRecords) id offset length) :
    ∃ refusal, d.call (.push id offset length) = (d, .error refusal) := by
  cases hpush : d.push id offset length with
  | ok d' => exact absurd (pushWithin_eq_ok_iff.1 hpush).1 h
  | error refusal => exact ⟨refusal, by simp only [call, hpush]⟩

@[simp] theorem records_set (d : Draft) (s : Setting) : (d.set s).records = d.records := by
  cases s <;> rfl

@[simp] theorem captureLength_set (d : Draft) (s : Setting) :
    (d.set s).captureLength = d.captureLength := by
  cases s <;> rfl

theorem captureLength_metadata (captureLength : UInt16) (calls : List Call) :
    (metadata captureLength calls).captureLength = captureLength := by
  have hset : ∀ (settings : List Setting) (d : Draft),
      (settings.foldl set d).captureLength = d.captureLength := by
    intro settings
    induction settings with
    | nil => exact fun _ => rfl
    | cons s rest ih => exact fun d => (ih (d.set s)).trans (captureLength_set d s)
  exact hset _ _

theorem reset_set (d : Draft) (s : Setting) : (d.set s).reset = d.reset.set s := by
  cases s <;> rfl

theorem Sound.call (h : d.Sound (some maxRecords)) (c : Call) :
    (d.call c).1.Sound (some maxRecords) := by
  cases c with
  | set s =>
    show (d.set s).Sound _
    exact ⟨by simpa using h.count, by simpa using h.within, by simpa using h.headed⟩
  | reset => exact sound_of_records_eq_nil rfl
  | push id offset length =>
    by_cases htakes : d.Takes (some maxRecords) id offset length
    · rw [call_push_of_takes htakes]
      exact h.pushWithin (pushWithin_eq_ok_iff.2 ⟨htakes, rfl⟩)
    · obtain ⟨refusal, hcall⟩ := call_push_of_not_takes htakes
      rw [hcall]
      exact h

theorem Sound.run (h : d.Sound (some maxRecords)) (calls : List Call) :
    (d.run calls).1.Sound (some maxRecords) := by
  induction calls generalizing d with
  | nil => exact h
  | cons c rest ih => exact ih (h.call c)

theorem map_entry_call (d : Draft) (c : Call) :
    (d.call c).1.records.map entry = put (d.records.map entry) (c, (d.call c).2) := by
  cases c with
  | set s =>
    show (d.set s).records.map entry = d.records.map entry
    rw [records_set]
  | reset => rfl
  | push id offset length =>
    by_cases htakes : d.Takes (some maxRecords) id offset length
    · rw [call_push_of_takes htakes]
      simp [put, entry_recordOf htakes]
    · obtain ⟨refusal, hcall⟩ := call_push_of_not_takes htakes
      rw [hcall]
      rfl

theorem map_entry_run (d : Draft) (calls : List Call) :
    (d.run calls).1.records.map entry = (d.run calls).2.foldl put (d.records.map entry) := by
  induction calls generalizing d with
  | nil => rfl
  | cons c rest ih => simp only [run, ih, List.foldl_cons, map_entry_call]

theorem reset_run (d : Draft) (calls : List Call) :
    (d.run calls).1.reset = (calls.filterMap Call.setting?).foldl set d.reset := by
  induction calls generalizing d with
  | nil => rfl
  | cons c rest ih =>
    simp only [run, ih]
    cases c with
    | set s =>
      show _ = (List.filterMap Call.setting? rest).foldl set (d.reset.set s)
      rw [← reset_set]
      rfl
    | reset => rfl
    | push id offset length =>
      show _ = (List.filterMap Call.setting? rest).foldl set d.reset
      by_cases htakes : d.Takes (some maxRecords) id offset length
      · rw [call_push_of_takes htakes]
        rfl
      · obtain ⟨refusal, hcall⟩ := call_push_of_not_takes htakes
        rw [hcall]

end Draft

end Type2

end FrameIndex
