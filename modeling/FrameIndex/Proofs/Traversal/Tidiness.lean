import FrameIndex.IndexedFrame
import FrameIndex.Proofs.Fields
import FrameIndex.Proofs.OptionSpan.Parsing
import FrameIndex.Proofs.Record.Tiling
import FrameIndex.Proofs.Traversal.Noting

/-!
# Traversals are tidy

The records of a traversal tile the captured bytes (`Traversal.Tidy`), and options that leave some
of their header uncovered are last only if there are as many records as may be, or if what is left
of the area begins with no option. Each action of a step keeps this, and makes the records that the
plan of the step says, as far as the limit allows (`Traversal.Adjoins.made`). So the records of
every dissected frame are tidy (`IndexedFrame.tidy_traversal`).
-/

namespace FrameIndex

theorem Layer.isInner_of_mem_ids (layer : Layer) : ∀ id ∈ layer.ids, id.isInner = false := by
  cases layer with
  | ipv6Extension kind => cases kind <;> decide
  | ethernet | llc | vlan | arp | ipv4 | ipv6 | tcp | udp | icmp | icmpv6 | gre => decide

namespace Traversal

open Type2.Draft (recordOf Takes Sound)

/-! ## Records of a plan -/

def capped (limit : Option Nat) (records : List HeaderRecord) : List HeaderRecord :=
  match limit with
  | none => records
  | some n => records.take n

theorem capped_capped_append (limit : Option Nat) (front behind : List HeaderRecord) :
    capped limit (capped limit front ++ behind) = capped limit (front ++ behind) := by
  cases limit with
  | none => rfl
  | some n =>
    show (front.take n ++ behind).take n = (front ++ behind).take n
    rw [List.take_append, List.take_append, List.take_take, Nat.min_self, List.length_take]
    congr 2
    omega

/-- The records of the options in an area that begins at an offset. -/
def optionRecords (idOf : Nat → HeaderId) (offset : Nat) : List OptionSpan → List HeaderRecord
  | [] => []
  | span :: rest =>
    recordOf (idOf span.kind) offset span.length ::
      optionRecords idOf (offset + span.length) rest

/-- The records that an action makes if nothing is refused. -/
def Action.records : Action → List HeaderRecord
  | .note id offset length => [recordOf id offset length]
  | .noteOptions idOf offset spans => optionRecords idOf offset spans
  | .frame _ | .describe _ => []

def Plan.records (p : Plan) : List HeaderRecord := p.actions.flatMap Action.records

/-! ## Tidy traversals -/

/-- The records tile the captured bytes, and only their number makes the traversal refuse more. -/
structure Laid (t : Traversal) (limit : Option Nat) (data : Bytes) (stop edge : Nat) : Prop where
  limit_eq : t.limit = limit
  captureLength_eq : t.draft.captureLength.toNat = data.length
  sound : t.draft.Sound limit
  refuses : t.RefusesSurplus
  tiled : Tiled t.draft.records stop edge

/-- The last record is not an option inside its header. -/
def Headed (t : Traversal) : Prop := HeaderRecord.lastOptions t.draft.records = []

def HeadedBy (t : Traversal) (id : HeaderId) : Prop :=
  ∃ header, HeaderRecord.lastHeader? t.draft.records = some header ∧ header.id = id

/-- If the last record is an option, then no option begins behind it, or there are as many records
as may be. -/
def Settled (t : Traversal) (data : Bytes) (stop edge : Nat) : Prop :=
  t.Headed ∨ t.Sated ∨ OptionSpan.parse (data.slice edge (stop - edge)) = []

/-- The records tile the captured bytes up to `stop`, and no option is left out without a reason. -/
def Tidy (t : Traversal) (limit : Option Nat) (data : Bytes) (stop : Nat) : Prop :=
  ∃ edge, t.Laid limit data stop edge ∧ t.Settled data stop edge

section

variable {t : Traversal} {limit : Option Nat} {data : Bytes} {stop edge : Nat}

theorem Laid.stop_le (h : t.Laid limit data stop edge) : stop ≤ data.length := by
  rcases h.tiled.exists_stop with ⟨-, rfl⟩ | ⟨r, hr, hstop⟩
  · exact Nat.zero_le _
  · rw [← hstop, ← h.captureLength_eq]
    exact h.sound.within r hr

theorem Laid.records_ne_nil (h : t.Laid limit data stop edge) (hpos : 0 < stop) :
    t.draft.records ≠ [] := by
  rcases h.tiled.exists_stop with ⟨-, rfl⟩ | ⟨r, hr, -⟩
  · omega
  · exact List.ne_nil_of_mem hr

theorem Laid.takes (h : t.Laid limit data stop edge) (hsated : ¬ t.Sated) {id : HeaderId}
    {offset length : Nat} (hle : offset + length ≤ data.length)
    (howned : id.isOption = true → t.draft.records ≠ []) :
    t.draft.Takes limit id offset length := by
  rw [← h.limit_eq]
  exact takes_of_not_sated hsated (by rw [h.captureLength_eq]; exact hle) howned

theorem Laid.noted (h : t.Laid limit data stop edge) (hsated : ¬ t.Sated) {id : HeaderId}
    {offset length stop' edge' : Nat} (htakes : t.draft.Takes limit id offset length)
    (htiled : Tiled (t.draft.records ++ [recordOf id offset length]) stop' edge') :
    (t.noted (recordOf id offset length)).Laid limit data stop' edge' where
  limit_eq := h.limit_eq
  captureLength_eq := h.captureLength_eq
  sound := h.sound.pushWithin (Type2.Draft.pushWithin_eq_ok_iff.2 ⟨htakes, rfl⟩)
  refuses refusal hrefusal := absurd (h.refuses refusal hrefusal).1 hsated
  tiled := htiled

theorem Laid.noted_header (h : t.Laid limit data stop edge) (hsated : ¬ t.Sated) {id : HeaderId}
    (houter : id.isInner = false) (howned : id.isOption = true → t.draft.records ≠ [])
    {length : Nat} (hpos : 0 < length) (hle : stop + length ≤ data.length) :
    (t.noted (recordOf id stop length)).Laid limit data (stop + length) (stop + 20) := by
  have htakes := h.takes hsated hle howned
  have htiled := h.tiled.header (r := recordOf id stop length) houter htakes.start_eq
    (by rw [htakes.size_eq]; exact hpos)
  rw [HeaderRecord.stop, htakes.start_eq, htakes.size_eq] at htiled
  exact h.noted hsated htakes htiled

theorem Laid.noted_option (h : t.Laid limit data stop edge) (hsated : ¬ t.Sated)
    {header : HeaderRecord} (howner : HeaderRecord.lastHeader? t.draft.records = some header)
    {id : HeaderId} (howns : header.id.Owns id) {length : Nat} (hpos : 0 < length)
    (hle : edge + length ≤ stop) :
    (t.noted (recordOf id edge length)).Laid limit data stop (edge + length) := by
  have htakes : t.draft.Takes limit id edge length :=
    h.takes hsated (Nat.le_trans hle h.stop_le) fun _ => h.records_ne_nil (by omega)
  have hstop : (recordOf id edge length).stop = edge + length := by
    rw [HeaderRecord.stop, htakes.start_eq, htakes.size_eq]
  have htiled := h.tiled.option (r := recordOf id edge length) howner howns htakes.start_eq
    (by rw [htakes.size_eq]; exact hpos) (by rw [hstop]; exact hle)
  rw [hstop] at htiled
  exact h.noted hsated htakes htiled

theorem Laid.refused (h : t.Laid limit data stop edge) (hsated : t.Sated) :
    ({ t with refused := some t.surplus } : Traversal).Laid limit data stop edge :=
  ⟨h.limit_eq, h.captureLength_eq, h.sound, fun _ hrefusal => ⟨hsated, by cases hrefusal; rfl⟩,
    h.tiled⟩

theorem headed_noted {r : HeaderRecord} (houter : r.id.isInner = false) : (t.noted r).Headed :=
  HeaderRecord.lastOptions_concat_outer houter

theorem headedBy_noted {id : HeaderId} {offset length : Nat} (houter : id.isInner = false) :
    (t.noted (recordOf id offset length)).HeadedBy id :=
  ⟨_, HeaderRecord.lastHeader?_concat_outer houter, rfl⟩

theorem Tidy.framed (h : t.Tidy limit data stop) (framing : LinkFraming) :
    (t.framed framing).Tidy limit data stop := by
  obtain ⟨edge, hlaid, hsettled⟩ := h
  have hsound : (t.framed framing).draft.Sound limit :=
    ⟨hlaid.sound.count, hlaid.sound.within, hlaid.sound.headed⟩
  exact ⟨edge, ⟨hlaid.limit_eq, hlaid.captureLength_eq, hsound, hlaid.refuses, hlaid.tiled⟩,
    hsettled⟩

theorem Tidy.withFragment (h : t.Tidy limit data stop) (fragment : Option FragmentPlace) :
    ({ t with fragment } : Traversal).Tidy limit data stop := by
  obtain ⟨edge, hlaid, hsettled⟩ := h
  exact ⟨edge, ⟨hlaid.limit_eq, hlaid.captureLength_eq, hlaid.sound, hlaid.refuses, hlaid.tiled⟩,
    hsettled⟩

theorem Laid.capped_eq (h : t.Laid limit data stop edge) :
    capped limit t.draft.records = t.draft.records := by
  cases limit with
  | none => rfl
  | some n => exact List.take_of_length_le (h.sound.count n rfl)

theorem Laid.capped_of_sated (h : t.Laid limit data stop edge) (hsated : t.Sated)
    (more : List HeaderRecord) : capped limit (t.draft.records ++ more) = t.draft.records := by
  obtain ⟨n, hn, hle⟩ := hsated
  obtain rfl := h.limit_eq.symm.trans hn
  have hcount := h.sound.count n rfl
  show (t.draft.records ++ more).take n = t.draft.records
  rw [List.take_append_of_le_length hle, List.take_of_length_le hcount]

theorem Laid.noteOptions {id : HeaderId} {idOf : Nat → HeaderId}
    (howns : ∀ kind, id.Owns (idOf kind)) {spans : List OptionSpan}
    (h : t.Laid limit data stop edge) (hheader : t.HeadedBy id)
    (hspans : OptionSpan.parse (data.slice edge (stop - edge)) = spans) :
    (t.noteOptions idOf edge spans).Tidy limit data stop ∧
      (t.noteOptions idOf edge spans).draft.records =
        capped limit (t.draft.records ++ optionRecords idOf edge spans) := by
  induction spans generalizing t edge with
  | nil =>
    refine ⟨⟨edge, h, .inr (.inr hspans)⟩, ?_⟩
    rw [optionRecords, List.append_nil, h.capped_eq]
    rfl
  | cons span rest ih =>
    obtain ⟨hpos, hle, hrest⟩ := OptionSpan.of_parse_eq_cons hspans
    rw [Bytes.length_slice] at hle
    rw [Bytes.drop_slice, Nat.sub_sub] at hrest
    have hedge : edge + span.length ≤ stop := by omega
    rw [Traversal.noteOptions]
    by_cases hsated : t.Sated
    · rw [note_of_sated hsated h.refuses]
      exact ⟨⟨edge, h.refused hsated, .inr (.inl hsated)⟩, (h.capped_of_sated hsated _).symm⟩
    · rw [note_of_not_sated hsated h.refuses
        (by rw [h.captureLength_eq]; exact Nat.le_trans hedge h.stop_le)
        fun _ => h.records_ne_nil (by omega)]
      obtain ⟨header, howner, rfl⟩ := hheader
      have hheader : (t.noted (recordOf (idOf span.kind) edge span.length)).HeadedBy header.id :=
        ⟨header, (HeaderRecord.lastHeader?_concat_inner (howns _).isInner).trans howner, rfl⟩
      obtain ⟨htidy, hrecords⟩ :=
        ih (h.noted_option hsated howner (howns _) hpos hedge) hheader hrest.symm
      refine ⟨htidy, hrecords.trans ?_⟩
      show capped limit (t.draft.records ++ [_] ++ _) = _
      rw [List.append_assoc]
      rfl

theorem Laid.tidy (h : t.Laid limit data stop edge) (hheaded : t.Headed) :
    t.Tidy limit data stop :=
  ⟨edge, h, .inl hheaded⟩

/-! ## Steps -/

/-- At a station behind the records. Only an Ethernet header begins the frame. -/
def Arrived (limit : Option Nat) (data : Bytes) (s : Station) (t : Traversal) : Prop :=
  t.Tidy limit data s.offset ∧ (s.layer = .ethernet ∨ 0 < s.offset)

/-- The result of a step that leaves the traversal tidy. -/
abbrev Orderly (limit : Option Nat) (data : Bytes) : Traversal × Option Station → Prop :=
  Outcome (Arrived limit data) fun t => ∃ stop, t.Tidy limit data stop

/-- The result is tidy, has made the records as far as the limit allows, and goes on where it should
unless nothing can be recorded any more. -/
structure Made (limit : Option Nat) (data : Bytes) (t : Traversal) (records : List HeaderRecord)
    (next : Option Station) (result : Traversal × Option Station) : Prop where
  orderly : Orderly limit data result
  records_eq : result.1.draft.records = capped limit (t.draft.records ++ records)
  goes : result.2 = next ∨ result.1.Sated

section

variable {t' : Traversal} {s : Station} {next : Option Station} {actions : List Action}
  {records front : List HeaderRecord} {result : Traversal × Option Station} {start length : Nat}
  {id : HeaderId}

theorem Made.behind (h : Made limit data t' records next result)
    (hfront : t'.draft.records = capped limit (t.draft.records ++ front)) :
    Made limit data t (front ++ records) next result where
  orderly := h.orderly
  records_eq := by rw [h.records_eq, hfront, capped_capped_append, List.append_assoc]
  goes := h.goes

theorem Tidy.made_note (h : t.Tidy limit data start) (houter : id.isInner = false)
    (howned : id.isOption = false ∨ 0 < start) (hpos : 0 < length)
    (hle : start + length ≤ data.length)
    (hbehind : ∀ t : Traversal, t.Laid limit data (start + length) (start + 20) → t.Headed →
      t.HeadedBy id → Made limit data t records next (t.carryOut next actions)) :
    Made limit data t (recordOf id start length :: records) next
      (t.carryOut next (.note id start length :: actions)) := by
  obtain ⟨edge, hlaid, -⟩ := h
  by_cases hsated : t.Sated
  · have hnote : t.note id start length = ({ t with refused := some t.surplus }, false) :=
      note_of_sated hsated hlaid.refuses
    rw [carryOut_of_refused (a := .note id start length) (congrArg Prod.snd hnote), act, hnote]
    exact ⟨⟨start, edge, hlaid.refused hsated, .inr (.inl hsated)⟩,
      (hlaid.capped_of_sated hsated _).symm, .inr hsated⟩
  · have howned' : id.isOption = true → t.draft.records ≠ [] :=
      fun hoption => hlaid.records_ne_nil (howned.resolve_left (by simp [hoption]))
    have hnote := note_of_not_sated hsated hlaid.refuses
      (by rw [hlaid.captureLength_eq]; exact hle) howned'
    have hnoted := hlaid.noted_header hsated houter howned' hpos hle
    rw [carryOut_of_done (a := .note id start length) (congrArg Prod.snd hnote), act, hnote]
    exact (hbehind _ hnoted (headed_noted houter) (headedBy_noted houter)).behind
      hnoted.capped_eq.symm

theorem Tidy.made_nil (h : t.Tidy limit data start)
    (hnext : ∀ station ∈ next, station.offset = start ∧ 0 < start) :
    Made limit data t [] next (t, next) where
  orderly := by
    cases next with
    | none => exact ⟨start, h⟩
    | some station =>
      obtain ⟨rfl, hpos⟩ := hnext station rfl
      exact ⟨h, .inr hpos⟩
  records_eq := by
    obtain ⟨edge, hlaid, -⟩ := h
    rw [List.append_nil, hlaid.capped_eq]
  goes := .inl rfl

theorem Laid.noteArea {idOf : Nat → HeaderId} (howns : ∀ kind, id.Owns (idOf kind))
    (h : t.Laid limit data (start + length) (start + 20)) (hheader : t.HeadedBy id) :
    let spans := OptionSpan.parse (Bytes.slice (data.drop start) 20 (length - 20))
    (t.noteOptions idOf (start + 20) spans).Tidy limit data (start + length) ∧
      (t.noteOptions idOf (start + 20) spans).draft.records =
        capped limit (t.draft.records ++ optionRecords idOf (start + 20) spans) := by
  refine h.noteOptions howns hheader ?_
  rw [Bytes.slice_drop, Nat.add_sub_add_left]

/-- What headers that adjoin one another leave behind. -/
theorem Adjoins.made (h : Adjoins data s start actions next)
    (howned : ∀ id ∈ s.layer.ids, id.isOption = false ∨ 0 < s.offset) (hle : s.offset ≤ start)
    (ht : t.Tidy limit data start) :
    Made limit data t (actions.flatMap Action.records) next (t.carryOut next actions) := by
  have houter := s.layer.isInner_of_mem_ids
  induction h generalizing t with
  | done goes =>
    refine ht.made_nil fun station hstation => ?_
    obtain ⟨hlt, -, hoffset, -⟩ := goes station hstation
    exact ⟨hoffset, by omega⟩
  | @remark start a rest next remark behind ih =>
    obtain ⟨edge, hlaid, -⟩ := id ht
    have hkept : t.draft.records = capped limit (t.draft.records ++ []) := by
      rw [List.append_nil, hlaid.capped_eq]
    cases a with
    | frame framing => exact (ih hle (ht.framed framing)).behind hkept
    | describe fragment => exact (ih hle (ht.withFragment (some fragment))).behind hkept
    | note | noteOptions => exact remark.elim
  | header id_mem pos stop_le behind ih =>
    refine ht.made_note (houter _ id_mem) ((howned _ id_mem).imp_right (by omega)) pos stop_le ?_
    intro t hlaid hheaded _
    exact ih (by omega) (hlaid.tidy hheaded)
  | @optioned start length id idOf rest next id_mem pos stop_le owns behind ih =>
    refine ht.made_note (houter _ id_mem) ((howned _ id_mem).imp_right (by omega)) pos stop_le ?_
    intro t hlaid _ hheader
    have howns : ∀ kind, id.Owns (idOf kind) := by
      rcases owns with ⟨hlayer, rfl⟩ | ⟨hlayer, rfl⟩ <;> rw [hlayer] at id_mem <;>
        cases List.mem_singleton.1 id_mem
      · exact fun kind => .inr ⟨rfl, kind, rfl⟩
      · exact fun kind => .inl ⟨rfl, kind, rfl⟩
    obtain ⟨htidy, hrecords⟩ := hlaid.noteArea howns hheader
    exact (ih (by omega) htidy).behind hrecords

/-- A step makes the records of its plan. -/
theorem Arrived.made (h : Arrived limit data s t) :
    Made limit data t (plan data s).records (plan data s).next (t.step data s) := by
  obtain ⟨htidy, hfirst⟩ := h
  rw [step_eq_carryOut]
  refine Adjoins.made (fits_plan data s) (fun id hid => ?_) (Nat.le_refl _) htidy
  rcases hfirst with hethernet | hpos
  · rw [hethernet] at hid
    cases List.mem_singleton.1 hid
    exact .inl rfl
  · exact .inr hpos

theorem Arrived.step (h : Arrived limit data s t) : Orderly limit data (t.step data s) :=
  h.made.orderly

end

end

theorem tidy_start (limit : Option Nat) {data : Bytes} (hlen : data.length ≤ 65535) :
    (start limit data).Tidy limit data 0 := by
  refine ⟨0, ⟨rfl, ?_, Type2.Draft.sound_of_records_eq_nil rfl, nofun, .nil⟩, .inl rfl⟩
  show (UInt16.ofNat (min data.length 65535)).toNat = data.length
  rw [UInt16.toNat_ofNat', Nat.min_eq_left hlen, Nat.mod_eq_of_lt (by omega)]

theorem tidy_ofEthernet (limit : Option Nat) {data : Bytes} (hlen : data.length ≤ 65535) :
    ∃ stop, (ofEthernet limit data).Tidy limit data stop :=
  run_of_step (fun _ _ => Arrived.step) ⟨tidy_start limit hlen, .inl rfl⟩

end Traversal

namespace IndexedFrame

theorem length_clip_le (frame : Frame) : (clip frame).length ≤ 65535 := by
  rw [clip, maxLength, List.length_take]
  exact Nat.min_le_left _ _

theorem tidy_traversal (frame : Frame) :
    ∃ stop, (traversal frame).Tidy (some Type2.maxRecords) (clip frame) stop := by
  unfold traversal
  by_cases hlink : frame.linkType = Frame.ethernetLink
  · rw [if_pos hlink]
    exact Traversal.tidy_ofEthernet _ (length_clip_le frame)
  · rw [if_neg hlink]
    exact ⟨0, Traversal.tidy_start _ (length_clip_le frame)⟩

end IndexedFrame

end FrameIndex
