import FrameIndex.Proofs.IndexedFrame.Truncation
import FrameIndex.Proofs.Traversal.LinkFraming
import FrameIndex.Proofs.Type2.RoundTrip

/-!
# The link framing of a frame

The framing in the descriptor of a frame is the one that its records say
(`IndexedFrame.framing_follows_records`): that of the Ethernet header at the front, unless there is
another Ethernet header further behind, which GRE bridges. Then it is the framing of the frame
inside (`IndexedFrame.inner_framing_reported`).
-/

namespace FrameIndex

namespace IndexedFrame

open HeaderRecord (latest? latest?_concat latest?_append_of_silent)
open Traversal (readings)

variable {frame : Frame}

theorem length_records_of_full (h : (traversal frame).full = true) :
    (traversal frame).draft.records.length = Type2.maxRecords := by
  obtain ⟨stop, edge, hlaid, -⟩ := tidy_traversal frame
  obtain ⟨refusal, hrefusal⟩ := Option.isSome_iff_exists.1 h
  obtain ⟨⟨n, hn, hle⟩, -⟩ := hlaid.refuses refusal hrefusal
  obtain rfl : Type2.maxRecords = n := Option.some.inj (hlaid.limit_eq.symm.trans hn)
  exact Nat.le_antisymm (hlaid.sound.count _ rfl) hle

theorem shows_traversal (frame : Frame) :
    (traversal frame).Shows (clip frame) ∨ (traversal frame).BreaksOff (clip frame) := by
  unfold traversal
  simp only
  split
  · exact Traversal.shows_ofEthernet (some Type2.maxRecords) (clip frame)
  · exact .inl (Traversal.shows_start _ _)

theorem framing_traversal (frame : Frame) :
    (traversal frame).draft.framing = framingOf (clip frame) (traversal frame).draft.records := by
  unfold framingOf
  rcases shows_traversal frame with hshows | hbreaks
  · rw [if_neg fun h => hshows.last_ne h.2, hshows.framing_eq]
  · rw [if_pos ⟨length_records_of_full hbreaks.full, hbreaks.last_eq⟩, hbreaks.framing_eq]

theorem exists_records_eq_cons (hlink : frame.linkType = Frame.ethernetLink)
    (hlen : 14 ≤ frame.data.length) :
    ∃ behind, Type2.records (indexed frame).descriptor = ⟨.ethernet, 0, 14⟩ :: behind := by
  have hclip : 14 ≤ (clip frame).length := by
    rw [clip, List.length_take]
    exact Nat.le_min.2 ⟨by decide, hlen⟩
  have htype : EthernetHeader.typeField? ((clip frame).drop 0) =
      some (Bytes.be (clip frame) 12 2) := if_pos hclip
  have hfirst : (Traversal.plan (clip frame) ⟨.ethernet, 0⟩).records = [⟨.ethernet, 0, 14⟩] := by
    simp only [Traversal.plan, htype]
    split <;> rfl
  obtain ⟨more, hmore⟩ : [⟨.ethernet, 0, 14⟩] <+: readings (clip frame) ⟨.ethernet, 0⟩ :=
    hfirst ▸ Traversal.records_prefix_readings
  exact ⟨more.take 15, by rw [records_eq_readings hlink, ← hmore]; rfl⟩

theorem framingOf_cons {data : Bytes} {link : HeaderRecord} {behind : List HeaderRecord}
    (hlink : link.id = .ethernet) (hbehind : ∀ r ∈ behind, r.id ≠ .ethernet) :
    framingOf data (link :: behind) = (framingAt? data link.start).getD .other := by
  have hsilent : ∀ r ∈ behind, linkFraming? data r = none :=
    fun r hr => Traversal.linkFraming?_of_ne (hbehind r hr)
  have hlatest : latest? (linkFraming? data) ([link] ++ behind) = framingAt? data link.start := by
    rw [latest?_append_of_silent hsilent, ← Traversal.linkFraming?_ethernet hlink,
      ← List.nil_append [link], latest?_concat]
    exact Option.or_none
  have hopen : ¬ ((link :: behind).length = Type2.maxRecords ∧
      (link :: behind).getLast?.bind (linkFraming? data) = some .snap) := by
    rintro ⟨hlength, hlast⟩
    have hne : behind ≠ [] := by
      rintro rfl
      exact absurd (show 1 = 16 from hlength) (by decide)
    rw [List.getLast?_cons, List.getLast?_eq_some_getLast hne, Option.getD_some, Option.bind_some,
      hsilent _ (List.getLast_mem hne)] at hlast
    cases hlast
  rw [framingOf, if_neg hopen]
  exact congrArg (·.getD .other) hlatest

/-- **The framing of a frame follows its records.** It is what the last recorded Ethernet header
says that says anything: Ethernet if it has a type, and otherwise SNAP or LLC, if the bytes behind
it are there to tell. A frame that is long enough begins with an Ethernet header, and what that says
is reported as long as there is no other. -/
theorem framing_follows_records (frame : Frame) :
    let d := indexed frame
    let records := Type2.records d.descriptor
    Type2.framing d.descriptor = framingOf d.data records ∧
    (frame.linkType = Frame.ethernetLink → 14 ≤ frame.data.length →
      ∃ behind, records = ⟨.ethernet, 0, 14⟩ :: behind ∧
        ((∀ r ∈ behind, r.id ≠ .ethernet) →
          Type2.framing d.descriptor = (framingAt? d.data 0).getD .other)) := by
  intro d records
  have hframing : Type2.framing d.descriptor = framingOf d.data records := by
    show Type2.framing (indexed frame).descriptor =
      framingOf (clip frame) (Type2.records (indexed frame).descriptor)
    rw [records_indexed, ← framing_traversal]
    exact Type2.framing_encode _
  refine ⟨hframing, fun hlink hlen => ?_⟩
  obtain ⟨behind, hrecords⟩ := exists_records_eq_cons hlink hlen
  refine ⟨behind, hrecords, fun hbehind => ?_⟩
  rw [hframing, show records = _ from hrecords]
  exact framingOf_cons rfl hbehind

/-- An Ethernet frame of 55 bytes, in which GRE bridges another one: that announces an LLC header by
the length that it states. -/
def bridgedFrame : Frame where
  number := 1
  timestamp := 0
  captured := 55
  onWire := 55
  linkType := Frame.ethernetLink
  data :=
    List.replicate 12 0 ++ [0x08, 0x00] ++
    [0x45, 0, 0, 41, 0, 0, 0, 0, 64, 47, 0, 0, 10, 0, 0, 1, 10, 0, 0, 2] ++
    [0, 0, 0x65, 0x58] ++
    List.replicate 12 0 ++ [0, 3] ++ [0x42, 0x42, 3]

theorem records_bridgedFrame : Type2.records (indexed bridgedFrame).descriptor =
    [⟨.ethernet, 0, 14⟩, ⟨.ipv4, 14, 20⟩, ⟨.gre, 34, 4⟩, ⟨.ethernet, 38, 14⟩, ⟨.llc, 52, 3⟩] := by
  rw [records_indexed]
  decide +kernel

/-- The header at the front of that frame has a type, and the frame is reported as LLC. -/
theorem inner_framing_reported :
    bridgedFrame.linkType = Frame.ethernetLink ∧ 14 ≤ bridgedFrame.data.length ∧
      0x0600 ≤ Bytes.be bridgedFrame.data 12 2 ∧
      Type2.records (indexed bridgedFrame).descriptor =
        [⟨.ethernet, 0, 14⟩, ⟨.ipv4, 14, 20⟩, ⟨.gre, 34, 4⟩, ⟨.ethernet, 38, 14⟩, ⟨.llc, 52, 3⟩] ∧
      Type2.framing (indexed bridgedFrame).descriptor = .llc := by
  have hframing : (traversal bridgedFrame).draft.framing = .llc := by decide +kernel
  exact ⟨rfl, by decide, by decide, records_bridgedFrame,
    (Type2.framing_encode _).trans hframing⟩

end IndexedFrame

end FrameIndex
