import FrameIndex.Record
import Mathlib.Data.List.Chain
import Mathlib.Data.List.DropRight

/-!
# Records that tile the front of a frame

Every header begins where the one before it ends, and the options of a TCP or IPv4 header lie inside
it, one behind the other from its 21st byte on (`Tiled`). Read as lists, the headers alone leave no
gap (`Tiled.adjoining_headers`), and the options behind each header lie inside it
(`Tiled.inside_header`).
-/

namespace FrameIndex

/-- Whether the identifier is one of a TCP or IPv4 option, which lies inside its header. Extension
headers of IPv6 lie behind theirs. -/
def HeaderId.isInner (id : HeaderId) : Bool := id.isOption && decide (id.protocol.val < 48)

theorem HeaderId.isInner_option {protocol : Nat} (h : protocol < 48) :
    (HeaderId.option protocol).isInner = true := by
  have hval : (HeaderId.option protocol).protocol.val = protocol % 64 := rfl
  have hpack : (HeaderId.option protocol).isOption = true := rfl
  rw [isInner, hpack, hval, Bool.true_and, decide_eq_true_eq]
  omega

theorem HeaderId.isInner_tcpOption (kind : Nat) : (HeaderId.tcpOption kind).isInner = true :=
  isInner_option (by omega)

theorem HeaderId.isInner_ipv4Option (type : Nat) : (HeaderId.ipv4Option type).isInner = true :=
  isInner_option (by omega)

def HeaderId.Owns (header option : HeaderId) : Prop :=
  (header = tcp ∧ ∃ kind, option = tcpOption kind) ∨
    (header = ipv4 ∧ ∃ type, option = ipv4Option type)

theorem HeaderId.Owns.isInner {header option : HeaderId} (h : header.Owns option) :
    option.isInner = true := by
  rcases h with ⟨-, kind, rfl⟩ | ⟨-, type, rfl⟩
  · exact isInner_tcpOption kind
  · exact isInner_ipv4Option type

/-! ## The last header and its options -/

namespace HeaderRecord

/-- The largest end of any record; 0 without records. -/
def largestStop (records : List HeaderRecord) : Nat := (records.map (·.stop)).max?.getD 0

/-- The end of the last record; 0 without records. -/
def lastStop (records : List HeaderRecord) : Nat := (records.getLast?.map (·.stop)).getD 0

/-- The options of a header that were recorded last. -/
def lastOptions (records : List HeaderRecord) : List HeaderRecord :=
  records.rtakeWhile (·.id.isInner)

def lastHeader? (records : List HeaderRecord) : Option HeaderRecord :=
  (records.rdropWhile (·.id.isInner)).getLast?

def optionBytes (records : List HeaderRecord) : Nat :=
  (lastOptions records).foldl (fun n r => n + r.size) 0

/-- The last header was recorded with options, but with fewer bytes of them than it has behind its
first twenty. -/
def CutShort (records : List HeaderRecord) : Prop :=
  lastOptions records ≠ [] ∧
    ∃ header, lastHeader? records = some header ∧ 20 + optionBytes records < header.size

theorem mem_of_lastHeader? {records : List HeaderRecord} {header : HeaderRecord}
    (h : lastHeader? records = some header) : header ∈ records :=
  (List.rdropWhile_prefix _ _).subset (List.mem_of_getLast? h)

section

variable {records : List HeaderRecord} {r : HeaderRecord}

theorem lastOptions_concat_outer (h : r.id.isInner = false) :
    lastOptions (records ++ [r]) = [] := by
  rw [lastOptions, List.rtakeWhile_concat, if_neg (by simp [h])]

theorem lastOptions_concat_inner (h : r.id.isInner = true) :
    lastOptions (records ++ [r]) = lastOptions records ++ [r] := by
  rw [lastOptions, List.rtakeWhile_concat, if_pos h, lastOptions]

theorem optionBytes_concat_inner (h : r.id.isInner = true) :
    optionBytes (records ++ [r]) = optionBytes records + r.size := by
  rw [optionBytes, lastOptions_concat_inner h, List.foldl_append, optionBytes]
  rfl

theorem lastHeader?_concat_outer (h : r.id.isInner = false) :
    lastHeader? (records ++ [r]) = some r := by
  rw [lastHeader?, List.rdropWhile_concat, if_neg (by simp [h]), List.getLast?_concat]

theorem lastHeader?_concat_inner (h : r.id.isInner = true) :
    lastHeader? (records ++ [r]) = lastHeader? records := by
  rw [lastHeader?, List.rdropWhile_concat, if_pos h, lastHeader?]

theorem lastStop_concat : lastStop (records ++ [r]) = r.stop := by
  rw [lastStop, List.getLast?_concat]
  rfl

end

end HeaderRecord

/-! ## Records without a gap -/

namespace HeaderRecord

/-- Where the last record ends; where the records begin, if there are none. -/
def reach (start : Nat) (records : List HeaderRecord) : Nat :=
  (records.getLast?.map (·.stop)).getD start

/-- The records follow one another from `start` on without a gap, and none of them is empty. -/
structure Adjoining (start : Nat) (records : List HeaderRecord) : Prop where
  begins : ∀ r, records.head? = some r → r.start = start
  joined : records.IsChain fun a b => b.start = a.stop
  pos : ∀ r ∈ records, 0 < r.size

def leadingOptions (records : List HeaderRecord) : List HeaderRecord :=
  records.takeWhile (·.id.isInner)

/-- The options are the header's own and lie inside it, one behind the other from its 21st byte
on. -/
structure Inside (header : HeaderRecord) (options : List HeaderRecord) : Prop where
  owned : ∀ r ∈ options, header.id.Owns r.id
  adjoining : Adjoining (header.start + 20) options
  ends : ∀ r ∈ options, r.stop ≤ header.stop

section

variable {records : List HeaderRecord} {r header : HeaderRecord} {start : Nat}

theorem reach_concat : reach start (records ++ [r]) = r.stop := by
  rw [reach, List.getLast?_concat]
  rfl

theorem leadingOptions_of_all (h : ∀ r ∈ records, r.id.isInner = true) :
    leadingOptions records = records :=
  List.takeWhile_eq_self_iff.2 h

theorem leadingOptions_concat_of_not_all (h : ¬ ∀ r ∈ records, r.id.isInner = true) :
    leadingOptions (records ++ [r]) = leadingOptions records := by
  rw [leadingOptions, List.takeWhile_append, if_neg]
  · rfl
  · intro hlen
    have hself := (List.takeWhile_sublist fun r : HeaderRecord => r.id.isInner).eq_of_length hlen
    exact h (List.takeWhile_eq_self_iff.1 hself)

theorem leadingOptions_concat_outer (h : r.id.isInner = false) :
    leadingOptions (records ++ [r]) = leadingOptions records := by
  by_cases hall : ∀ r ∈ records, r.id.isInner = true
  · rw [leadingOptions, List.takeWhile_append_of_pos hall, List.takeWhile_cons_of_neg (by simp [h]),
      List.append_nil, leadingOptions_of_all hall]
  · exact leadingOptions_concat_of_not_all hall

theorem adjoining_nil (start : Nat) : Adjoining start [] := ⟨nofun, .nil, nofun⟩

theorem inside_nil (header : HeaderRecord) : Inside header [] := ⟨nofun, adjoining_nil _, nofun⟩

theorem Adjoining.concat (h : Adjoining start records) (hstart : r.start = reach start records)
    (hpos : 0 < r.size) : Adjoining start (records ++ [r]) := by
  constructor
  case begins =>
    intro first hfirst
    cases records with
    | nil =>
      cases hfirst
      exact hstart
    | cons head tail => exact h.begins first hfirst
  case joined =>
    refine List.IsChain.append h.joined (.singleton r) fun last hlast next hnext => ?_
    cases hnext
    rw [hstart, reach, hlast]
    rfl
  case pos =>
    intro r' hr'
    rcases List.mem_append.1 hr' with hr' | hr'
    · exact h.pos r' hr'
    · rw [List.mem_singleton.1 hr']
      exact hpos

theorem Inside.concat (h : Inside header records) (howns : header.id.Owns r.id)
    (hstart : r.start = reach (header.start + 20) records) (hpos : 0 < r.size)
    (hstop : r.stop ≤ header.stop) : Inside header (records ++ [r]) := by
  refine ⟨fun r' hr' => ?_, h.adjoining.concat hstart hpos, fun r' hr' => ?_⟩
  · rcases List.mem_append.1 hr' with hr' | hr'
    · exact h.owned r' hr'
    · rw [List.mem_singleton.1 hr']
      exact howns
  · rcases List.mem_append.1 hr' with hr' | hr'
    · exact h.ends r' hr'
    · rw [List.mem_singleton.1 hr']
      exact hstop

end

end HeaderRecord

/-! ## Tilings -/

/-- The records tile the frame up to `stop`; the next option of the last header would begin at
`edge`. -/
inductive Tiled : List HeaderRecord → (stop edge : Nat) → Prop where
  | nil : Tiled [] 0 0
  | header {records : List HeaderRecord} {stop edge : Nat} {r : HeaderRecord}
      (front : Tiled records stop edge) (outer : r.id.isInner = false) (begins : r.start = stop)
      (pos : 0 < r.size) : Tiled (records ++ [r]) r.stop (r.start + 20)
  | option {records : List HeaderRecord} {stop edge : Nat} {header r : HeaderRecord}
      (front : Tiled records stop edge)
      (owner : HeaderRecord.lastHeader? records = some header) (owned : header.id.Owns r.id)
      (begins : r.start = edge) (pos : 0 < r.size) (ends : r.stop ≤ stop) :
      Tiled (records ++ [r]) stop r.stop

namespace Tiled

open HeaderRecord

variable {records : List HeaderRecord} {stop edge : Nat}

theorem stop_le (h : Tiled records stop edge) : ∀ r ∈ records, r.stop ≤ stop := by
  induction h with
  | nil => nofun
  | @header records stop edge last front outer begins pos ih =>
    intro r hr
    rcases List.mem_append.1 hr with hr | hr
    · have := ih r hr
      show r.stop ≤ last.start + last.size
      omega
    · rw [List.mem_singleton.1 hr]
  | option front owner owned begins pos ends ih =>
    intro r hr
    rcases List.mem_append.1 hr with hr | hr
    · exact ih r hr
    · rw [List.mem_singleton.1 hr]
      exact ends

theorem lastHeader (h : Tiled records stop edge) :
    records = [] ∧ stop = 0 ∨
      ∃ header, lastHeader? records = some header ∧ header.stop = stop ∧
        edge = header.start + 20 + optionBytes records := by
  induction h with
  | nil => exact .inl ⟨rfl, rfl⟩
  | @header records stop edge last front outer begins pos ih =>
    refine .inr ⟨last, lastHeader?_concat_outer outer, rfl, ?_⟩
    rw [optionBytes, lastOptions_concat_outer outer, List.foldl_nil, Nat.add_zero]
  | @option records stop edge owner last front howner owned begins pos ends ih =>
    have hstop : last.stop = last.start + last.size := rfl
    rcases ih with ⟨-, rfl⟩ | ⟨header, hheader, hheaderStop, hedge⟩
    · -- an option is not empty, so there is a header that reaches further than it begins
      omega
    · refine .inr ⟨header, by rw [lastHeader?_concat_inner owned.isInner, hheader], hheaderStop, ?_⟩
      rw [optionBytes_concat_inner owned.isInner]
      omega

theorem exists_stop (h : Tiled records stop edge) :
    records = [] ∧ stop = 0 ∨ ∃ r ∈ records, r.stop = stop := by
  rcases h.lastHeader with hnil | ⟨header, hheader, hstop, -⟩
  · exact .inl hnil
  · exact .inr ⟨header, mem_of_lastHeader? hheader, hstop⟩

theorem largestStop_eq (h : Tiled records stop edge) : largestStop records = stop := by
  rcases h.exists_stop with ⟨rfl, rfl⟩ | ⟨r, hr, hstop⟩
  · rfl
  · have hmax : (records.map (·.stop)).max? = some stop := by
      refine List.max?_eq_some_iff.2 ⟨List.mem_map.2 ⟨r, hr, hstop⟩, fun n hn => ?_⟩
      obtain ⟨r', hr', rfl⟩ := List.mem_map.1 hn
      exact h.stop_le r' hr'
    rw [largestStop, hmax, Option.getD_some]

/-- The last record ends where the records do, unless options are last that stop at an edge in front
of that. -/
theorem lastStop_cases (h : Tiled records stop edge) :
    (lastOptions records = [] ∧ lastStop records = stop) ∨
      (lastOptions records ≠ [] ∧ lastStop records = edge ∧ edge ≤ stop) := by
  cases h with
  | nil => exact .inl ⟨rfl, rfl⟩
  | header front outer begins pos =>
    exact .inl ⟨lastOptions_concat_outer outer, lastStop_concat⟩
  | option front owner owned begins pos ends =>
    refine .inr ⟨?_, lastStop_concat, ends⟩
    rw [lastOptions_concat_inner owned.isInner]
    exact List.concat_ne_nil _ _

/-- Options were cut short exactly if they are last and stop at an edge in front of the end. -/
theorem cutShort_iff (h : Tiled records stop edge) :
    CutShort records ↔ lastOptions records ≠ [] ∧ edge < stop := by
  unfold CutShort
  refine and_congr_right fun hopts => ?_
  rcases h.lastHeader with ⟨rfl, -⟩ | ⟨header, hheader, hstop, hedge⟩
  · exact absurd rfl hopts
  · have hsize : header.stop = header.start + header.size := rfl
    rw [hheader]
    simp only [Option.some.injEq, exists_eq_left']
    omega

theorem lastStop_eq_iff (h : Tiled records stop edge) :
    lastStop records = largestStop records ↔ ¬ CutShort records := by
  rw [h.largestStop_eq, h.cutShort_iff]
  rcases h.lastStop_cases with ⟨hopts, hlast⟩ | ⟨hopts, hlast, hle⟩
  · simp [hopts, hlast]
  · simp only [hlast, hopts, ne_eq, not_false_eq_true, true_and]
    omega

theorem lastStop_of_cutShort (h : Tiled records stop edge) (hcut : CutShort records) :
    lastStop records = edge ∧
      ∃ header ∈ records, header.start + 20 ≤ edge ∧ edge < header.stop ∧ header.stop = stop := by
  obtain ⟨hopts, hlt⟩ := h.cutShort_iff.1 hcut
  refine ⟨?_, ?_⟩
  · rcases h.lastStop_cases with ⟨hnil, -⟩ | ⟨-, hlast, -⟩
    · exact absurd hnil hopts
    · exact hlast
  · rcases h.lastHeader with ⟨rfl, -⟩ | ⟨header, hheader, hstop, hedge⟩
    · exact absurd rfl hopts
    · exact ⟨header, mem_of_lastHeader? hheader, by omega, by omega, hstop⟩

/-! ## Tilings as lists -/

theorem start_le_edge (h : Tiled records stop edge) : ∀ r ∈ records, r.start ≤ edge := by
  induction h with
  | nil => nofun
  | @header records stop edge last front outer begins pos ih =>
    intro r hr
    rcases List.mem_append.1 hr with hr | hr
    · have hstop := front.stop_le r hr
      have hsize : r.stop = r.start + r.size := rfl
      omega
    · rw [List.mem_singleton.1 hr]
      exact Nat.le_add_right _ _
  | @option records stop edge owner last front howner owned begins pos ends ih =>
    have hsize : last.stop = last.start + last.size := rfl
    intro r hr
    rcases List.mem_append.1 hr with hr | hr
    · have hedge := ih r hr
      omega
    · rw [List.mem_singleton.1 hr]
      omega

theorem pairwise_start_le (h : Tiled records stop edge) :
    records.Pairwise fun a b => a.start ≤ b.start := by
  induction h with
  | nil => exact .nil
  | header front outer begins pos ih =>
    refine List.pairwise_append.2 ⟨ih, List.pairwise_singleton _ _, ?_⟩
    intro a ha b hb
    rw [List.mem_singleton.1 hb, begins]
    exact Nat.le_trans (Nat.le_add_right a.start a.size) (front.stop_le a ha)
  | option front owner owned begins pos ends ih =>
    refine List.pairwise_append.2 ⟨ih, List.pairwise_singleton _ _, ?_⟩
    intro a ha b hb
    rw [List.mem_singleton.1 hb, begins]
    exact front.start_le_edge a ha

theorem adjoining_headers (h : Tiled records stop edge) :
    Adjoining 0 (records.filter (!·.id.isInner)) ∧
      reach 0 (records.filter (!·.id.isInner)) = stop := by
  induction h with
  | nil => exact ⟨adjoining_nil 0, rfl⟩
  | @header records stop edge last front outer begins pos ih =>
    obtain ⟨hadj, hreach⟩ := ih
    rw [List.filter_append, List.filter_cons_of_pos (by simp [outer]), List.filter_nil]
    exact ⟨hadj.concat (by rw [begins, hreach]) pos, reach_concat⟩
  | @option records stop edge owner last front howner owned begins pos ends ih =>
    rw [List.filter_append, List.filter_cons_of_neg (by simp [owned.isInner]), List.filter_nil,
      List.append_nil]
    exact ih

theorem leadingOptions_eq_nil (h : Tiled records stop edge) : leadingOptions records = [] := by
  induction h with
  | nil => rfl
  | header front outer begins pos ih => rw [leadingOptions_concat_outer outer, ih]
  | @option records stop edge owner last front howner owned begins pos ends ih =>
    by_cases hall : ∀ r ∈ records, r.id.isInner = true
    · rw [leadingOptions_of_all hall] at ih
      rw [ih] at howner
      cases howner
    · rw [leadingOptions_concat_of_not_all hall, ih]

theorem inside_header (h : Tiled records stop edge) {before after : List HeaderRecord}
    {header : HeaderRecord} (hsplit : records = before ++ header :: after)
    (houter : header.id.isInner = false) :
    Inside header (leadingOptions after) ∧
      ((∀ r ∈ after, r.id.isInner = true) →
        lastHeader? records = some header ∧ header.stop = stop ∧
          reach (header.start + 20) after = edge) := by
  induction h generalizing after with
  | nil => simp at hsplit
  | @header records stop edge last front outer begins pos ih =>
    rcases List.eq_nil_or_concat' after with rfl | ⟨after, r, rfl⟩
    · obtain ⟨-, hlast⟩ := List.append_inj' hsplit rfl
      cases hlast
      exact ⟨inside_nil header, fun _ => ⟨lastHeader?_concat_outer outer, rfl, rfl⟩⟩
    · rw [← List.cons_append, ← List.append_assoc] at hsplit
      obtain ⟨hrecords, hlast⟩ := List.append_inj' hsplit rfl
      cases hlast
      -- the new header is no option of the one before it
      rw [leadingOptions_concat_outer outer]
      refine ⟨(ih hrecords).1, fun hall => ?_⟩
      have hinner := hall last (List.mem_append_right _ List.mem_cons_self)
      rw [outer] at hinner
      cases hinner
  | @option records stop edge owner last front howner owned begins pos ends ih =>
    rcases List.eq_nil_or_concat' after with rfl | ⟨after, r, rfl⟩
    · obtain ⟨-, hlast⟩ := List.append_inj' hsplit rfl
      cases hlast
      rw [owned.isInner] at houter
      cases houter
    · rw [← List.cons_append, ← List.append_assoc] at hsplit
      obtain ⟨hrecords, hlast⟩ := List.append_inj' hsplit rfl
      cases hlast
      obtain ⟨hinside, hreach⟩ := ih hrecords
      by_cases hall : ∀ r ∈ after, r.id.isInner = true
      · obtain ⟨hlast, hstop, hedge⟩ := hreach hall
        obtain rfl : owner = header := Option.some.inj (howner.symm.trans hlast)
        have hbegins : last.start = reach (owner.start + 20) after := by rw [begins, hedge]
        have hall' : ∀ r ∈ after ++ [last], r.id.isInner = true :=
          List.forall_mem_append.2 ⟨hall, by simpa using owned.isInner⟩
        rw [leadingOptions_of_all hall] at hinside
        rw [leadingOptions_of_all hall', lastHeader?_concat_inner owned.isInner]
        exact ⟨hinside.concat owned hbegins pos (hstop ▸ ends),
          fun _ => ⟨hlast, hstop, reach_concat⟩⟩
      · rw [leadingOptions_concat_of_not_all hall]
        exact ⟨hinside, fun hall' => absurd (List.forall_mem_append.1 hall').1 hall⟩

end Tiled

end FrameIndex
