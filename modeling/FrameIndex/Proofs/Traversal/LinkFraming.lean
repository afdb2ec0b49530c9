import FrameIndex.Proofs.Record.Latest
import FrameIndex.Proofs.Traversal.Plans

/-!
# Which link framing is noted

An Ethernet header says how what follows it is framed: its type field does, or the bytes of the LLC
header that it announces (`framingAt?`). Not only the header at the front of a frame is read so, but
every Ethernet header that is recorded, and a traversal notes what the last of them says that says
anything (`Traversal.Shows`). There is one exception: if the SNAP header is not looked for any more,
because the Ethernet header that announces it fills the descriptor, then the framing is noted as
that of an LLC header (`Traversal.BreaksOff`). Every step keeps that (`Traversal.Linked.step`).
-/

namespace FrameIndex

/-- How the Ethernet header at an offset says that the link is framed. It says nothing if it
announces an LLC header that is not there. -/
def framingAt? (data : Bytes) (offset : Nat) : Option LinkFraming :=
  let rest := data.drop (offset + EthernetHeader.length)
  if 0x0600 ≤ Bytes.be (data.drop offset) 12 2 then some .ether
  else if rest.length < 3 then none
  else if Bytes.byteAt rest 0 = 0xaa ∧ Bytes.byteAt rest 1 = 0xaa ∧ 8 ≤ rest.length then some .snap
  else some .llc

/-- How a header says that the link is framed. Only Ethernet headers do. -/
def linkFraming? (data : Bytes) (r : HeaderRecord) : Option LinkFraming :=
  if r.id = .ethernet then framingAt? data r.start else none

/-- The framing that the records say: that of the last Ethernet header that says anything. Where the
descriptor is full with an Ethernet header in front of LLC and SNAP, it is LLC. -/
def framingOf (data : Bytes) (records : List HeaderRecord) : LinkFraming :=
  if records.length = Type2.maxRecords ∧ records.getLast?.bind (linkFraming? data) = some .snap then
    .llc
  else (HeaderRecord.latest? (linkFraming? data) records).getD .other

theorem Layer.not_announces_llc {layer : Layer} (h : layer ≠ .ethernet) :
    ¬ layer.announces .llc := by
  cases layer <;> simp_all [announces, ofEtherTypes, ofProtocols]

namespace Traversal

open HeaderRecord (latest? latest?_concat latest?_append_of_silent)
open Type2.Draft (recordOf)

/-- The framing that is noted is the one that the last record says that says any, and that is not
the very last one if it says SNAP. -/
structure Shows (data : Bytes) (t : Traversal) : Prop where
  framing_eq : t.draft.framing = (latest? (linkFraming? data) t.draft.records).getD .other
  last_ne : t.draft.records.getLast?.bind (linkFraming? data) ≠ some .snap

/-- The Ethernet header in front of LLC and SNAP was the last one that could be recorded. -/
structure BreaksOff (data : Bytes) (t : Traversal) : Prop where
  full : t.full = true
  framing_eq : t.draft.framing = .llc
  last_eq : t.draft.records.getLast?.bind (linkFraming? data) = some .snap

/-- In front of an LLC header: the last record is that of the Ethernet header that announces it, and
what is noted is what the records in front of it say. -/
def Announced (data : Bytes) (offset : Nat) (t : Traversal) : Prop :=
  ∃ front link, t.draft.records = front ++ [link] ∧ link.id = .ethernet ∧
    link.start + EthernetHeader.length = offset ∧ Bytes.be (data.drop link.start) 12 2 < 0x0600 ∧
    t.draft.framing = (latest? (linkFraming? data) front).getD .other

/-- At a station: what is noted, with the exception of what an LLC header is yet to say. -/
def Linked (data : Bytes) (s : Station) (t : Traversal) : Prop :=
  if s.layer = .llc then Announced data s.offset t else t.Shows data

section

variable {data : Bytes} {t : Traversal} {s : Station} {offset : Nat} {front : List HeaderRecord}
  {r link : HeaderRecord}

theorem linkFraming?_of_ne (h : r.id ≠ .ethernet) : linkFraming? data r = none := if_neg h

theorem linkFraming?_ethernet (h : r.id = .ethernet) :
    linkFraming? data r = framingAt? data r.start := if_pos h

theorem Shows.append_silent (h : t.Shows data) {t' : Traversal}
    (hframing : t'.draft.framing = t.draft.framing) (hadds : t.Adds (· ≠ .ethernet) t') :
    t'.Shows data := by
  obtain ⟨more, hrecords, hsilent⟩ := hadds
  have htold : ∀ r ∈ more, linkFraming? data r = none :=
    fun r hr => linkFraming?_of_ne (hsilent r hr)
  constructor
  case framing_eq => rw [hframing, hrecords, h.framing_eq, latest?_append_of_silent htold]
  case last_ne =>
    rw [hrecords, List.getLast?_append]
    cases hlast : more.getLast? with
    | none => exact h.last_ne
    | some last =>
      rw [Option.some_or, Option.bind_some, htold last (List.mem_of_getLast? hlast)]
      nofun

/-- An Ethernet header says how the link is framed, and what is recorded behind it says nothing. If
it says SNAP, there is something behind it. -/
theorem shows_behind {more : List HeaderRecord} {framing : LinkFraming}
    (hrecords : t.draft.records = front ++ [link] ++ more)
    (htold : linkFraming? data link = some framing) (hframing : t.draft.framing = framing)
    (hsilent : ∀ r ∈ more, linkFraming? data r = none) (hmore : framing ≠ .snap ∨ more ≠ []) :
    t.Shows data := by
  constructor
  case framing_eq =>
    rw [hrecords, latest?_append_of_silent hsilent, latest?_concat, htold, hframing]
    rfl
  case last_ne =>
    rw [hrecords, List.getLast?_append]
    cases hlast : more.getLast? with
    | none =>
      rw [Option.none_or, List.getLast?_concat, Option.bind_some, htold]
      intro hsnap
      exact hmore.elim (· (Option.some.inj hsnap)) (· (List.getLast?_eq_none_iff.1 hlast))
    | some last =>
      rw [Option.some_or, Option.bind_some, hsilent last (List.mem_of_getLast? hlast)]
      nofun

/-! ## Steps -/

abbrev Leads (data : Bytes) : Traversal × Option Station → Prop :=
  Outcome (Linked data) fun t => t.Shows data ∨ t.BreaksOff data

theorem leads_of_shows {result : Traversal × Option Station} (h : result.1.Shows data)
    (hnext : ∀ next, result.2 = some next → next.layer ≠ .llc) : Leads data result := by
  rcases result with ⟨t, _ | next⟩
  · exact .inl h
  · show Linked data next t
    rw [Linked, if_neg (hnext next rfl)]
    exact h

theorem ne_ethernet_of_mem_ids {layer : Layer} (h : layer ≠ .ethernet) :
    ∀ id ∈ layer.ids, id ≠ .ethernet := by
  cases layer with
  | ethernet => exact absurd rfl h
  | ipv6Extension kind => cases kind <;> decide
  | llc | vlan | arp | ipv4 | ipv6 | tcp | udp | icmp | icmpv6 | gre => decide

theorem ne_ethernet_of_isOption {id : HeaderId} (h : id.isOption = true) : id ≠ .ethernet := by
  rintro rfl
  exact absurd h (by decide)

theorem leads_thenAtType (h : t.Shows data) (type : Nat) :
    Leads data (t.thenAt (Layer.ofEtherType? type) offset) := by
  refine leads_of_shows h fun next hnext hllc => ?_
  obtain ⟨layer, hlayer, rfl⟩ := Option.map_eq_some_iff.1 hnext
  obtain rfl : layer = .llc := hllc
  exact absurd (Layer.mem_ofEtherTypes hlayer) (by decide)

theorem Shows.step_silent (h : t.Shows data) (hethernet : s.layer ≠ .ethernet)
    (hllc : s.layer ≠ .llc) : Leads data (t.step data s) := by
  refine leads_of_shows ?_ fun next hnext hnextLlc => ?_
  · refine step_keeps (fun a ha t ht => ?_) h
    have hdoes := does_of_mem_plan ha
    have hnames : a.Names (· ≠ .ethernet) := hdoes.names (ne_ethernet_of_mem_ids hethernet)
      (fun _ => ne_ethernet_of_isOption rfl) fun _ => ne_ethernet_of_isOption rfl
    exact ht.append_silent (framing_act (hdoes.ne_frame hethernet hllc) t) (adds_act hnames t)
  · have hannounces := announces_of_step hnext
    rw [hnextLlc] at hannounces
    exact Layer.not_announces_llc hethernet hannounces

/-- A type of at least 0x0600 says Ethernet; a length leaves the framing to the LLC header. -/
theorem Shows.ethernetStep (h : t.Shows data) : Leads data (t.ethernetStep data offset) := by
  unfold Traversal.ethernetStep
  split
  · exact .inl h
  rename_i type htype
  obtain rfl : Bytes.be (data.drop offset) 12 2 = type := by
    simp only [EthernetHeader.typeField?, Option.ite_none_right_eq_some, Option.some.injEq] at htype
    exact htype.2
  unfold Traversal.noteThen
  rcases t.note_cases .ethernet offset EthernetHeader.length with
    ⟨-, htakes, hnote⟩ | ⟨-, refused, -, hnote⟩
  case inr =>
    rw [hnote]
    exact .inl ⟨h.framing_eq, h.last_ne⟩
  rw [hnote]
  have hstart : (recordOf .ethernet offset EthernetHeader.length).start = offset := htakes.start_eq
  simp only
  split
  · rename_i hlength
    refine ⟨t.draft.records, _, rfl, rfl, ?_, ?_, h.framing_eq⟩
    · rw [hstart]
    · rw [hstart]
      exact hlength
  · rename_i hlength
    have htold : linkFraming? data (recordOf .ethernet offset EthernetHeader.length) =
        some .ether := by
      rw [linkFraming?_ethernet rfl, hstart, framingAt?, if_pos (Nat.le_of_not_lt hlength)]
    exact leads_thenAtType
      (shows_behind (List.append_nil _).symm htold rfl (List.forall_mem_nil _) (.inl (by decide))) _

theorem leads_snap {llc : HeaderRecord} (hrecords : t.draft.records = front ++ [link] ++ [llc])
    (htold : linkFraming? data link = some .snap) (hllc : linkFraming? data llc = none)
    {length next : Nat} (type : Nat) :
    Leads data ((t.framed .snap).noteThen .snap offset length fun t =>
      t.thenAt (Layer.ofEtherType? type) next) := by
  rw [Traversal.noteThen]
  rcases (t.framed .snap).note_cases .snap offset length with
    ⟨-, -, hnote⟩ | ⟨-, refused, -, hnote⟩
  · rw [hnote]
    have hsnap : linkFraming? data (recordOf .snap offset length) = none :=
      linkFraming?_of_ne (show HeaderId.snap ≠ .ethernet by decide)
    have hrecords' : ((t.framed .snap).noted (recordOf .snap offset length)).draft.records =
        front ++ [link] ++ [llc, recordOf .snap offset length] := by
      simp [noted, Traversal.framed, hrecords]
    exact leads_thenAtType (shows_behind hrecords' htold rfl (by simp [hllc, hsnap])
      (.inr (List.cons_ne_nil _ _))) type
  · rw [hnote]
    exact .inl (shows_behind hrecords htold rfl (List.forall_mem_singleton.2 hllc)
      (.inr (List.cons_ne_nil _ _)))

theorem Announced.llcStep (h : Announced data offset t) : Leads data (t.llcStep data offset) := by
  obtain ⟨front, link, hrecords, hid, rfl, hlength, hframing⟩ := h
  have htold : linkFraming? data link = framingAt? data link.start := linkFraming?_ethernet hid
  rw [framingAt?, if_neg (Nat.not_le.2 hlength)] at htold
  unfold Traversal.llcStep
  simp only at htold ⊢
  split
  · -- three bytes are needed to say anything
    rename_i hshort
    rw [if_pos hshort] at htold
    refine .inl ⟨?_, ?_⟩
    · rw [hframing, hrecords, latest?_concat, htold, Option.none_or]
    · rw [hrecords, List.getLast?_concat, Option.bind_some, htold]
      nofun
  rename_i hlong
  rw [if_neg hlong] at htold
  rw [Traversal.noteThen]
  rcases (t.framed .llc).note_cases .llc (link.start + EthernetHeader.length) 3 with
    ⟨-, -, hnote⟩ | ⟨-, refused, hsome, hnote⟩
  case inr =>
    rw [hnote]
    split at htold
    · refine .inr ⟨hsome, rfl, ?_⟩
      show t.draft.records.getLast?.bind (linkFraming? data) = _
      rw [hrecords, List.getLast?_concat, Option.bind_some, htold]
    · have hsame : t.draft.records = front ++ [link] ++ [] := by rw [hrecords, List.append_nil]
      exact .inl (shows_behind hsame htold rfl (List.forall_mem_nil _) (.inl (by decide)))
  rw [hnote]
  have hllc : linkFraming? data (recordOf .llc (link.start + EthernetHeader.length) 3) = none :=
    linkFraming?_of_ne (show HeaderId.llc ≠ .ethernet by decide)
  simp only
  split
  · rename_i hsnap
    rw [if_pos hsnap] at htold
    exact leads_snap (congrArg (· ++ _) hrecords) htold hllc _
  · rename_i hsnap
    rw [if_neg hsnap] at htold
    exact .inl (shows_behind (congrArg (· ++ _) hrecords) htold rfl
      (List.forall_mem_singleton.2 hllc) (.inl (by decide)))

theorem Linked.step (h : Linked data s t) : Leads data (t.step data s) := by
  unfold Linked at h
  by_cases hllc : s.layer = .llc
  · rw [if_pos hllc] at h
    rw [Traversal.step, hllc]
    exact h.llcStep
  · rw [if_neg hllc] at h
    by_cases hethernet : s.layer = .ethernet
    · rw [Traversal.step, hethernet]
      exact h.ethernetStep
    · exact h.step_silent hethernet hllc

theorem shows_start (limit : Option Nat) (data : Bytes) : (start limit data).Shows data :=
  ⟨rfl, nofun⟩

theorem shows_ofEthernet (limit : Option Nat) (data : Bytes) :
    (ofEthernet limit data).Shows data ∨ (ofEthernet limit data).BreaksOff data :=
  run_of_step (fun _ _ => Linked.step) (shows_start limit data)

end

end Traversal

end FrameIndex
