import FrameIndex.Proofs.IndexedFrame.Figures
import FrameIndex.Proofs.IndexedFrame.Records
import FrameIndex.Proofs.Traversal.InnermostFragments

/-!
# The fragment data of a frame

The fragment data that is described of a frame belongs to an IP header among the records, and it was
captured. Behind an IPv4 header it ends with the datagram at the latest. Behind an IPv6 header it
goes on to the end of the frame, whatever payload length is stated there, so it stays within the
datagram only if nothing was captured behind that (`IndexedFrame.fragment_reaches`).

Of several IP headers it is the innermost one with a fragment. If the fragment is not the first of
its datagram, no header is recorded behind it (`IndexedFrame.fragment_innermost`).
-/

namespace FrameIndex

theorem FragmentPlace.decode_encode (f : FragmentPlace) : decode f.encode = f := by
  obtain ⟨identification, offset, flags, ipVersion, dataOffset, dataLength⟩ := f
  simp [decode, encode, Bytes.limit]

namespace IndexedFrame

open HeaderRecord (Inside leadingOptions_of_all)
open Traversal (FragmentOf Contained Innermost datagramStop? ipFragment?)

variable {layout : Layout} {frame : Frame}

theorem owned_traversal (frame : Frame) : (traversal frame).Owned (clip frame) := by
  unfold traversal
  simp only
  split
  · exact Traversal.owned_ofEthernet (some Type2.maxRecords) (clip frame)
  · exact Traversal.owned_start _ _

theorem records_ofFrame (hlayout : layout ≠ .pcap) (frame : Frame) :
    (ofFrame layout frame).index.records = (traversal frame).draft.records := by
  rw [ofFrame, if_neg hlayout]
  exact records_indexed frame

theorem exists_fragmentOf {bs : Bytes} (h : (ofFrame layout frame).fragment = some bs) :
    ∃ ip, FragmentOf (clip frame) (ofFrame layout frame).index.records ip
      (FragmentPlace.decode bs) := by
  by_cases hlayout : layout = .pcap
  · rw [ofFrame, if_pos hlayout] at h
    cases h
  · rw [records_ofFrame hlayout]
    rw [ofFrame, if_neg hlayout] at h
    obtain ⟨f, hf, rfl⟩ := Option.map_eq_some_iff.1 h
    rw [FragmentPlace.decode_encode]
    exact owned_traversal frame f hf

/-- **How far the fragment data of a frame reaches.** It belongs to a recorded IP header, and it was
captured. Unless it is empty, that of an IPv4 header lies within the datagram. That of an IPv6
header always ends with the captured bytes, so it lies within the datagram exactly if it is empty,
if the header does not state the end of the datagram, or if nothing was captured behind that. -/
theorem fragment_reaches {bs : Bytes} (h : (ofFrame layout frame).fragment = some bs) :
    let data := (ofFrame layout frame).data
    let f := FragmentPlace.decode bs
    f.stop ≤ data.length ∧
    ∃ ip, FragmentOf data (ofFrame layout frame).index.records ip f ∧
      (ip.id = .ipv4 ∧ Contained data ip f ∨
        ip.id = .ipv6 ∧ f.stop = data.length ∧
          (Contained data ip f ↔ f.dataLength = 0 ∨
            ∀ stop, datagramStop? data ip = some stop → data.length ≤ stop)) := by
  rw [data_ofFrame]
  obtain ⟨ip, hof⟩ := exists_fragmentOf h
  have hreaches := hof.reaches (length_clip_le frame)
  refine ⟨hreaches.captured, ip, hof, ?_⟩
  rcases hreaches.ip with hip | hip
  · exact .inl ⟨hip, hreaches.ipv4 hip⟩
  · have hstop := hreaches.ipv6 hip
    refine .inr ⟨hip, hstop, ?_⟩
    rw [Contained, hstop, ← UInt16.toNat_inj, UInt16.toNat_zero, or_iff_not_imp_left,
      Nat.pos_iff_ne_zero]

/-- An Ethernet frame of 74 bytes: an IPv6 fragment with eight bytes of data, and behind its
datagram the four bytes of the frame check sequence. -/
def checkedFragment : Frame where
  number := 1
  timestamp := 0
  captured := 74
  onWire := 74
  linkType := Frame.ethernetLink
  data :=
    List.replicate 12 0 ++ [0x86, 0xdd] ++
    [0x60, 0, 0, 0, 0, 16, 44, 64] ++ List.replicate 32 0 ++
    [59, 0, 0, 9, 1, 2, 3, 4] ++
    [0xd0, 0xd1, 0xd2, 0xd3, 0xd4, 0xd5, 0xd6, 0xd7] ++ [0xf0, 0xf1, 0xf2, 0xf3]

/-- What is described of the fragment: twelve bytes of data where the datagram has eight. -/
def checkedFragmentPlace : FragmentPlace where
  identification := 0x01020304
  offset := 8
  flags := 1
  ipVersion := 6
  dataOffset := 62
  dataLength := 12

theorem fragment_checkedFragment :
    (ofFrame .type2 checkedFragment).fragment = some checkedFragmentPlace.encode := by
  have hfragment : (traversal checkedFragment).fragment = some checkedFragmentPlace := by
    decide +kernel
  exact congrArg (Option.map FragmentPlace.encode) hfragment

theorem records_checkedFragment : (ofFrame .type2 checkedFragment).index.records =
    [⟨.ethernet, 0, 14⟩, ⟨.ipv6, 14, 40⟩, ⟨HeaderId.ipv6Fragment, 54, 8⟩] := by
  rw [records_ofFrame (by decide)]
  decide +kernel

theorem datagramStop?_checkedFragment {ip : HeaderRecord}
    (h : FragmentOf (ofFrame .type2 checkedFragment).data
      (ofFrame .type2 checkedFragment).index.records ip checkedFragmentPlace) :
    datagramStop? (ofFrame .type2 checkedFragment).data ip = some 70 := by
  have hdata : (ofFrame .type2 checkedFragment).data = checkedFragment.data := by decide +kernel
  have hmem := h.mem
  have hip := (h.reaches (by rw [hdata]; decide)).ip
  rw [records_checkedFragment] at hmem
  rw [hdata]
  simp only [List.mem_cons, List.not_mem_nil, or_false] at hmem
  rcases hmem with rfl | rfl | rfl
  · exact absurd hip (by decide)
  · decide
  · exact absurd hip (by decide)

theorem not_contained_checkedFragment {ip : HeaderRecord}
    (h : FragmentOf (ofFrame .type2 checkedFragment).data
      (ofFrame .type2 checkedFragment).index.records ip checkedFragmentPlace) :
    ¬ Contained (ofFrame .type2 checkedFragment).data ip checkedFragmentPlace := by
  intro hcontained
  have hle : checkedFragmentPlace.stop ≤ 70 :=
    hcontained (by decide) 70 (datagramStop?_checkedFragment h)
  exact absurd hle (by decide)

theorem fragment_reaches_checked :
    (ofFrame .type2 checkedFragment).fragment = some checkedFragmentPlace.encode ∧
      ∃ ip, FragmentOf (ofFrame .type2 checkedFragment).data
          (ofFrame .type2 checkedFragment).index.records ip checkedFragmentPlace ∧
        ip.id = .ipv6 ∧
        checkedFragmentPlace.stop = (ofFrame .type2 checkedFragment).data.length := by
  have hreaches := (fragment_reaches fragment_checkedFragment).2
  rw [FragmentPlace.decode_encode] at hreaches
  obtain ⟨ip, hof, hcases⟩ := hreaches
  rcases hcases with ⟨-, hcontained⟩ | ⟨hip, hstop, -⟩
  · exact absurd hcontained (not_contained_checkedFragment hof)
  · exact ⟨fragment_checkedFragment, ip, hof, hip, hstop⟩

/-- The check sequence counts as fragment data: that of the one IP header, whose datagram ends in
front of it. -/
theorem check_sequence_in_fragment :
    let data := (ofFrame .type2 checkedFragment).data
    let records := (ofFrame .type2 checkedFragment).index.records
    (ofFrame .type2 checkedFragment).fragment = some checkedFragmentPlace.encode ∧
      checkedFragmentPlace.stop = 74 ∧
      ∀ ip, FragmentOf data records ip checkedFragmentPlace →
        datagramStop? data ip = some 70 ∧ ¬ Contained data ip checkedFragmentPlace := by
  refine ⟨fragment_checkedFragment, rfl, fun ip hof => ?_⟩
  exact ⟨datagramStop?_checkedFragment hof, not_contained_checkedFragment hof⟩

theorem tells_traversal (frame : Frame) :
    (traversal frame).Tells (clip frame) ∧ (traversal frame).Ended (clip frame) := by
  unfold traversal
  simp only
  split
  · exact Traversal.tells_ofEthernet (some Type2.maxRecords) (clip frame)
  · exact ⟨Traversal.tells_start _ _, .inl nofun⟩

theorem inside_of_isInner {before behind : List HeaderRecord} {ip : HeaderRecord}
    (hsplit : (traversal frame).draft.records = before ++ ip :: behind) (hip : ip.id = .ipv4)
    (hinner : ∀ r ∈ behind, r.id.isInner = true) : Inside ip behind := by
  have hinside := (records_tile frame).2.2.1 before ip behind
    ((records_indexed frame).trans hsplit) (by rw [hip]; decide)
  rwa [leadingOptions_of_all hinner] at hinside

/-- **The fragment of a frame is that of its innermost fragmented IP header.** An IPv4 header is
fragmented if it states an offset or announces more fragments, and an IPv6 header if there is a
fragment header among its extension headers; the last one counts. Fragment data is described exactly
if one of the recorded IP headers is fragmented, and it is what the innermost of these says. If it
is not the first fragment of its datagram, nothing is recorded behind its header but the options of
an IPv4 header. -/
theorem fragment_innermost (layout : Layout) (frame : Frame) :
    let d := ofFrame layout frame
    (d.fragment = none ↔ ∀ before ip behind, d.index.records = before ++ ip :: behind →
      ipFragment? d.data ip behind = none) ∧
    ∀ bs, d.fragment = some bs → ∃ before ip behind, d.index.records = before ++ ip :: behind ∧
      ipFragment? d.data ip behind = some (FragmentPlace.decode bs) ∧
      (∀ between inner rest, behind = between ++ inner :: rest →
        ipFragment? d.data inner rest = none) ∧
      ((FragmentPlace.decode bs).offset ≠ 0 →
        ip.id = .ipv4 ∧ Inside ip behind ∨
          ip.id = .ipv6 ∧ ∃ between header, behind = between ++ [header] ∧
            header.id = HeaderId.ipv6Fragment ∧ ∀ r ∈ between, r.id.isExtension = true) := by
  intro d
  by_cases hlayout : layout = .pcap
  · subst hlayout
    refine ⟨iff_of_true rfl fun before ip behind hsplit => ?_, nofun⟩
    cases before <;> cases hsplit
  have hrecords : d.index.records = (traversal frame).draft.records := records_ofFrame hlayout frame
  have hfragment : d.fragment = (traversal frame).fragment.map FragmentPlace.encode := by
    show (ofFrame layout frame).fragment = _
    rw [ofFrame, if_neg hlayout]
    rfl
  have hdata : d.data = clip frame := data_ofFrame layout frame
  obtain ⟨htells, hended⟩ := tells_traversal frame
  rw [hrecords, hfragment, hdata]
  refine ⟨?_, fun bs hbs => ?_⟩
  · rw [Option.map_eq_none_iff]
    exact htells.fragment_eq_none_iff hended
  · obtain ⟨f, hf, rfl⟩ := Option.map_eq_some_iff.1 hbs
    obtain ⟨before, ip, behind, hsplit, hinnermost, hpast⟩ := htells.innermost hended hf
    rw [FragmentPlace.decode_encode]
    refine ⟨before, ip, behind, hsplit, hinnermost.fragment_eq, hinnermost.no_inner, fun hne => ?_⟩
    rcases hpast hne with ⟨hip, hinner⟩ | hip
    · exact .inl ⟨hip, inside_of_isInner hsplit hip hinner⟩
    · exact .inr hip

end IndexedFrame

end FrameIndex
