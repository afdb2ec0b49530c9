import FrameIndex.Proofs.HeaderIndex.Extensions
import FrameIndex.Proofs.Packet.Access

/-!
# Whose options they are

The options of a header are met in two ways: one is looked up as an extension of the header
(`Packet.FindsOption`), and all of them are bound along with the header (`Packet.ShowsOption`). For
a header that is no option itself the two go by the same records. An option is bound without the
records behind it, which belong to the header in front. But looked up as an extension, these records
are found behind the option as well, so the two ways differ exactly for an option with such records
(`Packet.owned_alike_iff`).
-/

namespace FrameIndex

theorem HeaderId.isOption_eq_of_agrees {a b : HeaderId} (h : a.agrees b = true) :
    a.isOption = b.isOption := by
  obtain ⟨hpack, -⟩ := agrees_iff.1 h
  rw [isOption, isOption, hpack]

theorem HeaderId.isPayload_eq_false_of_isOption {id : HeaderId} (h : id.isOption = true) :
    id.isPayload = false := by
  refine Bool.eq_false_iff.2 fun hpayload => ?_
  rw [isOption_eq_of_agrees hpayload] at h
  cases h

namespace HeaderIndex

variable {ix : HeaderIndex} {id ext : HeaderId} {depth index parent : Nat} {hint : Option Nat}

theorem Extends.firstOption {l : Placement} (h : ix.Extends parent ext l)
    (hindex : l.record = some index) : HeaderRecord.FirstOption ix.records parent ext index := by
  cases h with
  | option _ first recorded =>
    obtain ⟨r, -, rfl⟩ := recorded?_eq_some_iff.1 recorded
    exact Option.some.inj hindex ▸ first
  | payload _ _ _ _ record_eq =>
    rw [record_eq] at hindex
    cases hindex

theorem exists_extends_of_firstOption (hext : ext.isPayload = false)
    (h : HeaderRecord.FirstOption ix.records parent ext index) :
    ∃ l, ix.Extends parent ext l ∧ l.record = some index := by
  obtain ⟨r, hr, -⟩ := (Option.any_eq_true _ _).1 h.agrees
  obtain ⟨l, hl, hindex⟩ := exists_recorded? (List.getElem?_eq_some_iff.1 hr).1
  exact ⟨l, .option hext h hl, hindex⟩

end HeaderIndex

namespace Packet

variable {V : Type} {p : Packet V} {id ext : HeaderId} {depth index parent : Nat} {l : Placement}

theorem records_eq_nil_of_not_isBound (h : p.isBound = false) : p.index.records = [] := by
  have himage : p.chain.head.image = none := Option.not_isSome_iff_eq_none.1 (Bool.eq_false_iff.1 h)
  rw [index, Descriptor.index, Descriptor.bytes, himage]
  cases p.chain.head.layout <;> rfl

theorem locate?_eq_index_header? (hframe : id.isFrame = false) (hpayload : id.isPayload = false)
    (depth : Nat) : p.locate? id depth = p.index.header? id depth := by
  cases hbound : p.isBound with
  | true => exact locate?_eq_header? hbound ⟨hframe, hpayload⟩ depth
  | false =>
    have hnone : p.index.recordOf? id depth = none := by
      rw [HeaderIndex.recordOf?, records_eq_nil_of_not_isBound hbound]
      split <;> rfl
    rw [(HeaderIndex.header?_eq_none_iff hpayload).2 hnone, locate?, hbound]
    rfl

def LocatedAt (p : Packet V) (id : HeaderId) (depth index : Nat) : Prop :=
  ∃ l, p.locate? id depth = some l ∧ l.record = some index

theorem locatedAt_iff (hframe : id.isFrame = false) (hpayload : id.isPayload = false) :
    p.LocatedAt id depth parent ↔ p.index.recordOf? id depth = some parent := by
  rw [LocatedAt, locate?_eq_index_header? hframe hpayload,
    HeaderIndex.recordOf?_eq_bind_record hpayload, Option.bind_eq_some_iff]

/-- The first option of its kind behind a header is looked up at a record. -/
def FindsOption (p : Packet V) (id ext : HeaderId) (depth index : Nat) : Prop :=
  ∃ l, p.index.extension? id ext depth none = some l ∧ l.record = some index

/-- A raw view of a header is bound with a run of options, and a record is the first of the run for
an option. -/
def ShowsOption (p : Packet RawView) (id ext : HeaderId) (depth index : Nat) : Prop :=
  ∃ w run, p.bindHeaderIfAny { id } depth = (w, .ok true) ∧ w.run = some run ∧
    (run.first ≤ index ∧ index < run.last) ∧
    p.index.records[index]?.any (·.id.agrees ext) = true ∧
    ∀ j, run.first ≤ j → j < index → p.index.records[j]?.any (·.id.agrees ext) = false

theorem findsOption_iff (hbounded : p.index.Bounded) (hframe : id.isFrame = false)
    (hpayload : id.isPayload = false) (hext : ext.isPayload = false) :
    p.FindsOption id ext depth index ↔
      ∃ parent, p.LocatedAt id depth parent ∧
        HeaderRecord.FirstOption p.index.records parent ext index := by
  simp only [locatedAt_iff hframe hpayload]
  constructor
  · rintro ⟨l, hl, hindex⟩
    obtain ⟨parent, hparent, hextends⟩ := hbounded.extension?_eq_some_iff.1 hl
    exact ⟨parent, hparent, hextends.firstOption hindex⟩
  · rintro ⟨parent, hparent, hfirst⟩
    obtain ⟨l, hextends, hindex⟩ := HeaderIndex.exists_extends_of_firstOption hext hfirst
    exact ⟨l, hbounded.extension?_eq_some_iff.2 ⟨parent, hparent, hextends⟩, hindex⟩

/-- The options that are bound along with a header are all of its record, and none if it is an
option itself. -/
theorem ownOptions?_of_recordOf? (h : p.index.recordOf? id depth = some parent)
    (hl : l.record = some parent) :
    ownOptions? p.index l =
      if id.isOption then none else HeaderRecord.optionRun? p.index.records parent := by
  obtain ⟨r, hr, hagrees⟩ := HeaderIndex.getElem?_of_recordOf? h
  rw [ownOptions?, hl, Option.bind_some, hr, ← HeaderId.isOption_eq_of_agrees hagrees]
  rfl

theorem exists_ownOptions?_iff (hframe : id.isFrame = false) (hpayload : id.isPayload = false)
    {run : OptionRun} :
    (∃ l, p.locate? id depth = some l ∧ ownOptions? p.index l = some run) ↔
      id.isOption = false ∧ ∃ parent, p.LocatedAt id depth parent ∧
        HeaderRecord.optionRun? p.index.records parent = some run := by
  constructor
  · rintro ⟨l, hl, hown⟩
    have hheader := hl
    rw [locate?_eq_index_header? hframe hpayload] at hheader
    obtain ⟨parent, hparent, hrecord⟩ := HeaderIndex.recordOf?_of_header? hheader
    rw [ownOptions?_of_recordOf? hrecord hparent] at hown
    cases hoption : id.isOption with
    | true => simp [hoption] at hown
    | false => exact ⟨rfl, parent, ⟨l, hl, hparent⟩, by simpa [hoption] using hown⟩
  · rintro ⟨hoption, parent, ⟨l, hl, hparent⟩, hrun⟩
    have hrecord := (locatedAt_iff hframe hpayload).1 ⟨l, hl, hparent⟩
    refine ⟨l, hl, ?_⟩
    rw [ownOptions?_of_recordOf? hrecord hparent, hoption, ← hrun]
    rfl

theorem exists_run_iff {p : Packet RawView} (hfits : p.Fits) {run : OptionRun} :
    (∃ w, p.bindHeaderIfAny { id } depth = (w, .ok true) ∧ w.run = some run) ↔
      ∃ l, p.locate? id depth = some l ∧ ownOptions? p.index l = some run := by
  obtain ⟨w, hbind, hshows⟩ := hfits.confined.bindHeader { id } depth
  rw [hbind]
  constructor
  · rintro ⟨w', hw, hrun⟩
    obtain ⟨rfl, hfound⟩ := Prod.mk.inj hw
    obtain ⟨l, hl⟩ := Option.isSome_iff_exists.1 (Except.ok.inj hfound)
    exact ⟨l, hl, (hshows l hl).run_eq.symm.trans hrun⟩
  · rintro ⟨l, hl, hown⟩
    have hfound : (p.locate? id depth).isSome = true := Option.isSome_of_eq_some hl
    exact ⟨w, congrArg (fun found => (w, Except.ok found)) hfound, (hshows l hl).run_eq.trans hown⟩

theorem showsOption_iff {p : Packet RawView} (hfits : p.Fits) (hframe : id.isFrame = false)
    (hpayload : id.isPayload = false) :
    p.ShowsOption id ext depth index ↔ id.isOption = false ∧
      ∃ parent, p.LocatedAt id depth parent ∧
        HeaderRecord.FirstOption p.index.records parent ext index := by
  constructor
  · rintro ⟨w, run, hbind, hrun, hfirst⟩
    have hown := (exists_run_iff hfits).1 ⟨w, hbind, hrun⟩
    obtain ⟨hoption, parent, hparent, hdescribed⟩ := (exists_ownOptions?_iff hframe hpayload).1 hown
    exact ⟨hoption, parent, hparent, (HeaderRecord.firstOption_iff_of_optionRun? hdescribed).2 hfirst⟩
  · rintro ⟨hoption, parent, hparent, hfirst⟩
    obtain ⟨run, hdescribed⟩ := hfirst.inRun.exists_optionRun?
    obtain ⟨w, hbind, hrun⟩ := (exists_run_iff hfits).2
      ((exists_ownOptions?_iff hframe hpayload).2 ⟨hoption, parent, hparent, hdescribed⟩)
    exact ⟨w, run, hbind, hrun, (HeaderRecord.firstOption_iff_of_optionRun? hdescribed).1 hfirst⟩

theorem hasExtension_iff (hbounded : p.index.Bounded) (hext : ext.isPayload = false) :
    p.hasExtension id ext depth = true ↔ ∃ index, p.FindsOption id ext depth index := by
  rw [hasExtension, Option.isSome_iff_exists]
  constructor
  · rintro ⟨l, hl⟩
    obtain ⟨parent, -, hextends⟩ := hbounded.extension?_eq_some_iff.1 hl
    cases hextends with
    | option _ first recorded =>
      obtain ⟨r, -, rfl⟩ := HeaderIndex.recorded?_eq_some_iff.1 recorded
      exact ⟨_, _, hl, rfl⟩
    | payload is_payload => simp [hext] at is_payload
  · rintro ⟨index, l, hl, -⟩
    exact ⟨l, hl⟩

/-- **Options are owned alike, but for those behind options.** After any requests to a packet with
raw views, a header other than the frame and the payload is bound with a run whose first record for
an option is a given one exactly if the header is no option itself and the option is looked up at
that record. It is looked up there exactly if the record is the first for it in the unbroken run
behind the record of the header. So the two ways agree on an option of a header unless the header is
an option and the other is looked up behind it all the same. -/
theorem owned_alike_iff (setup : PacketSetup) (factory : ViewFactory RawView)
    (requests : List Request) (id ext : HeaderId) (hframe : id.isFrame = false)
    (hpayload : id.isPayload = false) (hext : ext.isOption = true) (depth : Nat) :
    let p := ((unbound setup factory).run requests).1
    (∀ index, p.ShowsOption id ext depth index ↔
      id.isOption = false ∧ p.FindsOption id ext depth index) ∧
    (∀ index, p.FindsOption id ext depth index ↔
      ∃ parent, p.LocatedAt id depth parent ∧
        HeaderRecord.FirstOption p.index.records parent ext index) ∧
    ((∀ index, p.FindsOption id ext depth index ↔ p.ShowsOption id ext depth index) ↔
      id.isOption = false ∨ p.hasExtension id ext depth = false) := by
  intro p
  have hfits : p.Fits := fits_run setup factory requests
  have hfinds : ∀ index, p.FindsOption id ext depth index ↔
      ∃ parent, p.LocatedAt id depth parent ∧
        HeaderRecord.FirstOption p.index.records parent ext index := fun index =>
    findsOption_iff hfits.bounded hframe hpayload
      (HeaderId.isPayload_eq_false_of_isOption hext)
  have hshows : ∀ index, p.ShowsOption id ext depth index ↔
      id.isOption = false ∧ p.FindsOption id ext depth index := by
    intro index
    rw [hfinds, showsOption_iff hfits hframe hpayload]
  refine ⟨hshows, hfinds, ?_⟩
  have hnotFound : p.hasExtension id ext depth = false ↔
      ∀ index, ¬ p.FindsOption id ext depth index := by
    rw [← Bool.not_eq_true, hasExtension_iff hfits.bounded
      (HeaderId.isPayload_eq_false_of_isOption hext), not_exists]
  simp only [hshows, hnotFound]
  cases id.isOption with
  | false => simp
  | true => simp

def optionsInARow : Bytes :=
  Type2.Draft.encode {
    captureLength := 74
    records := [⟨.ethernet, 0, 14⟩, ⟨.ipv4, 14, 20⟩, ⟨.tcp, 34, 28⟩, ⟨.tcpOption 1, 54, 4⟩,
      ⟨.tcpOption 2, 58, 4⟩] }

def optionsBound : List Request := [.bind (List.replicate 74 0) optionsInARow]

theorem owned_alike_iff_tcp :
    let p := ((unbound {} ViewFactory.raw).run optionsBound).1
    HeaderId.tcp.isFrame = false ∧ HeaderId.tcp.isPayload = false ∧
    (HeaderId.tcpOption 2).isOption = true ∧
    p.ShowsOption .tcp (.tcpOption 2) 0 4 ∧
    ¬ ∀ index, p.FindsOption (.tcpOption 1) (.tcpOption 2) 0 index ↔
      p.ShowsOption (.tcpOption 1) (.tcpOption 2) 0 index := by
  intro p
  obtain ⟨hshows, -, -⟩ := owned_alike_iff {} ViewFactory.raw optionsBound
    .tcp (.tcpOption 2) (by decide) (by decide) (by decide) 0
  obtain ⟨-, -, halike⟩ := owned_alike_iff {} ViewFactory.raw optionsBound
    (.tcpOption 1) (.tcpOption 2) (by decide) (by decide) (by decide) 0
  have hfinds : p.FindsOption .tcp (.tcpOption 2) 0 4 :=
    ⟨⟨58, 4, some 4, .type2⟩, by decide +kernel, rfl⟩
  have hbehind : p.hasExtension (.tcpOption 1) (.tcpOption 2) 0 = true := by decide +kernel
  refine ⟨by decide, by decide, by decide, (hshows 4).2 ⟨by decide, hfinds⟩, fun hagree => ?_⟩
  rcases halike.1 hagree with hoption | hnone
  · exact absurd hoption (by decide)
  · exact Bool.false_ne_true (hnone.symm.trans hbehind)

/-- The second option is looked up behind the first, and the first is bound without it. -/
theorem option_behind_option :
    let p := ((unbound {} ViewFactory.raw).run optionsBound).1
    p.isBound = true ∧ (HeaderId.tcpOption 1).isFrame = false ∧
    (HeaderId.tcpOption 1).isPayload = false ∧ (HeaderId.tcpOption 2).isOption = true ∧
    p.FindsOption (.tcpOption 1) (.tcpOption 2) 0 4 ∧
    ¬ p.ShowsOption (.tcpOption 1) (.tcpOption 2) 0 4 := by
  intro p
  have hframe : (HeaderId.tcpOption 1).isFrame = false := by decide
  have hpayload : (HeaderId.tcpOption 1).isPayload = false := by decide
  refine ⟨by decide +kernel, hframe, hpayload, by decide,
    ⟨⟨58, 4, some 4, .type2⟩, by decide +kernel, rfl⟩, fun hshows => ?_⟩
  have hfits : p.Fits := fits_run {} ViewFactory.raw optionsBound
  obtain ⟨hoption, -⟩ := (showsOption_iff hfits hframe hpayload).1 hshows
  exact absurd hoption (by decide)

end Packet

end FrameIndex
