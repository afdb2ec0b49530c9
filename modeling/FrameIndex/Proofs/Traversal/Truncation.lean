import FrameIndex.Proofs.ProtocolHeaders.Trailing
import FrameIndex.Proofs.Traversal.Plans
import FrameIndex.Proofs.Traversal.Readings

/-!
# Frames that are cut off

What is read of the front of a frame is the front of what is read of the whole: a header that lies
within the front is read the same, and where the front ends nothing more is read of it
(`grows_plan`). So the records of the front are the first ones of the whole (`readings_append`), but
for an ICMP timestamp message at the end of the front. It is the last thing that is recorded there,
and it is not recorded of the whole, where something follows it.
-/

namespace FrameIndex

namespace Traversal

open Type2.Draft (recordOf start_recordOf size_recordOf)

/-! ## One header -/

/-- More bytes let a header say the same, or go on where it said nothing more. -/
inductive Plan.Grows (short long : Plan) : Prop
  | same (records_eq : long.records = short.records) (next_eq : long.next = short.next)
  | ended (next_eq : short.next = none) (begins : short.records <+: long.records)

theorem Plan.Grows.nothing (long : Plan) : Grows Plan.nothing long :=
  .ended rfl List.nil_prefix

theorem Plan.Grows.header {id : HeaderId} {offset length : Nat} {layer layer' : Option Layer}
    {others others' : List Action} (h : layer' = layer ∨ layer = none)
    (hothers : others'.flatMap Action.records = others.flatMap Action.records) :
    Grows (.header id offset length others layer) (.header id offset length others' layer') := by
  have hrecords : (Plan.header id offset length others' layer').records =
      (Plan.header id offset length others layer).records :=
    congrArg (recordOf id offset length :: ·) hothers
  rcases h with rfl | rfl
  · exact .same hrecords rfl
  · exact .ended rfl (hrecords ▸ List.prefix_refl _)

theorem Plan.Grows.last {id : HeaderId} {offset : Nat} {length length' : Option Nat}
    (h : ∀ n, length = some n → length' = some n) :
    Grows (.last id offset length) (.last id offset length') := by
  cases length with
  | none => exact .nothing _
  | some n => exact .same (by rw [h n rfl]) (by rw [h n rfl])

/-- The station is in front of an ICMP timestamp message that ends with the data. -/
def AtTimestamp (data : Bytes) (s : Station) : Prop :=
  s.layer = .icmp ∧ IcmpHeader.length? (data.drop s.offset) = some 20

variable {data more : Bytes} {s : Station}

theorem Adjoins.records_eq_nil {start : Nat} {actions : List Action} {next : Option Station}
    (h : Adjoins data s start actions next) (hle : data.length ≤ start) :
    actions.flatMap Action.records = [] := by
  induction h with
  | done goes => rfl
  | @remark start a rest next remark behind ih =>
    cases a with
    | frame | describe => exact ih hle
    | note | noteOptions => exact remark.elim
  | header id_mem pos stop_le behind ih => omega
  | optioned id_mem pos stop_le owns behind ih => omega

theorem grows_of_length_le (hle : data.length ≤ s.offset) (long : Plan) :
    (plan data s).Grows long := by
  refine .ended ?_ ?_
  · cases hnext : (plan data s).next with
    | none => rfl
    | some next =>
      have hgoes := plan_goes hnext
      omega
  · rw [Plan.records, Adjoins.records_eq_nil (fits_plan data s) hle]
    exact List.nil_prefix

section

variable {offset : Nat} (hle : offset ≤ data.length)
include hle

theorem grows_ethernet :
    (plan data ⟨.ethernet, offset⟩).Grows (plan (data ++ more) ⟨.ethernet, offset⟩) := by
  simp only [plan, List.drop_append_of_le_length hle]
  cases htype : EthernetHeader.typeField? (data.drop offset) with
  | none => exact .nothing _
  | some type =>
    rw [EthernetHeader.typeField?_append more htype]
    exact .same rfl rfl

theorem grows_llc : (plan data ⟨.llc, offset⟩).Grows (plan (data ++ more) ⟨.llc, offset⟩) := by
  simp only [plan, List.drop_append_of_le_length hle, List.length_append]
  by_cases hshort : (data.drop offset).length < 3
  · rw [if_pos hshort]
    exact .nothing _
  rw [if_neg hshort, if_neg (show ¬ (data.drop offset).length + more.length < 3 by omega),
    Bytes.byteAt_append_left (by omega), Bytes.byteAt_append_left (by omega)]
  by_cases hsnap : Bytes.byteAt (data.drop offset) 0 = 0xaa ∧
      Bytes.byteAt (data.drop offset) 1 = 0xaa ∧ 8 ≤ (data.drop offset).length
  · rw [if_pos hsnap, if_pos ⟨hsnap.1, hsnap.2.1, by omega⟩, Bytes.be_append_left (by omega)]
    exact .same rfl rfl
  · rw [if_neg hsnap]
    split
    · exact .ended rfl (List.prefix_append [_] _)
    · exact .same rfl rfl

theorem grows_vlan : (plan data ⟨.vlan, offset⟩).Grows (plan (data ++ more) ⟨.vlan, offset⟩) := by
  simp only [plan, List.drop_append_of_le_length hle]
  cases htype : VlanTag.typeField? (data.drop offset) with
  | none => exact .nothing _
  | some type =>
    rw [VlanTag.typeField?_append more htype]
    exact .same rfl rfl

theorem grows_ipv4 : (plan data ⟨.ipv4, offset⟩).Grows (plan (data ++ more) ⟨.ipv4, offset⟩) := by
  simp only [plan, List.drop_append_of_le_length hle]
  cases hread : Ipv4Header.read? (data.drop offset) with
  | none => exact .nothing _
  | some header =>
    rw [Ipv4Header.read?_append more hread]
    -- the fragment data reaches further, but that is not recorded
    refine .header (.inl rfl) ?_
    split <;> rfl

theorem grows_ipv6 : (plan data ⟨.ipv6, offset⟩).Grows (plan (data ++ more) ⟨.ipv6, offset⟩) := by
  simp only [plan, List.drop_append_of_le_length hle]
  cases hnext : Ipv6Header.nextHeader? (data.drop offset) with
  | none => exact .nothing _
  | some next =>
    have hheader : 40 ≤ (data.drop offset).length := Ipv6Header.length_le hnext
    rw [List.length_drop] at hheader
    have hbehind : offset + Ipv6Header.length ≤ data.length := by
      show offset + 40 ≤ data.length
      omega
    rw [Ipv6Header.nextHeader?_append more hnext, List.drop_append_of_le_length hbehind]
    exact .header (Layer.ofNextHeader?_append more next) rfl

theorem grows_ipv6Extension (kind : Ipv6Extension) :
    (plan data ⟨.ipv6Extension kind, offset⟩).Grows
      (plan (data ++ more) ⟨.ipv6Extension kind, offset⟩) := by
  have hlen : (data.drop offset).length = data.length - offset := List.length_drop
  have hmin : 8 ≤ kind.length (data.drop offset) := kind.minLength_le_length _
  simp only [plan, List.drop_append_of_le_length hle]
  by_cases hshort : (data.drop offset).length < kind.length (data.drop offset)
  · rw [if_pos hshort]
    exact .nothing _
  have hbehind : offset + kind.length (data.drop offset) ≤ data.length := by omega
  have hlong : ¬ (data.drop offset ++ more).length < kind.length (data.drop offset) := by
    rw [List.length_append]
    omega
  have hfirst : (ipv6Fragment (data ++ more) offset).offset =
      (ipv6Fragment data offset).offset := by
    simp only [ipv6Fragment, List.drop_append_of_le_length hle]
    rw [Bytes.be_append_left (by omega)]
  rw [if_neg hshort, kind.length_append more (by omega), if_neg hlong,
    List.drop_append_of_le_length hbehind, hfirst, Bytes.byteAt_append_left (by omega)]
  have hlayer :=
    @Layer.ofNextHeader?_append (data.drop (offset + kind.length (data.drop offset))) more
      (Bytes.byteAt (data.drop offset) 0)
  split
  · refine .header ?_ rfl
    split
    · exact hlayer
    · exact .inl rfl
  · exact .header hlayer rfl

theorem grows_tcp : (plan data ⟨.tcp, offset⟩).Grows (plan (data ++ more) ⟨.tcp, offset⟩) := by
  simp only [plan, List.drop_append_of_le_length hle]
  cases hread : TcpHeader.read? (data.drop offset) with
  | none => exact .nothing _
  | some header =>
    rw [TcpHeader.read?_append more hread]
    exact .same rfl rfl

theorem grows_gre : (plan data ⟨.gre, offset⟩).Grows (plan (data ++ more) ⟨.gre, offset⟩) := by
  simp only [plan, List.drop_append_of_le_length hle]
  cases hread : GreHeader.read? (data.drop offset) with
  | none => exact .nothing _
  | some header =>
    rw [GreHeader.read?_append more hread]
    exact .same rfl rfl

end

theorem grows_plan (hsmall : (data ++ more).length ≤ 65535) (hs : ¬ AtTimestamp data s) :
    (plan data s).Grows (plan (data ++ more) s) := by
  obtain ⟨layer, offset⟩ := s
  by_cases hle : offset ≤ data.length
  case neg => exact grows_of_length_le (by show data.length ≤ offset; omega) _
  have hdrop : (data ++ more).drop offset = data.drop offset ++ more :=
    List.drop_append_of_le_length hle
  cases layer with
  | ethernet => exact grows_ethernet hle
  | llc => exact grows_llc hle
  | vlan => exact grows_vlan hle
  | ipv4 => exact grows_ipv4 hle
  | ipv6 => exact grows_ipv6 hle
  | ipv6Extension kind => exact grows_ipv6Extension hle kind
  | tcp => exact grows_tcp hle
  | gre => exact grows_gre hle
  | arp =>
    simp only [plan, hdrop]
    exact .last fun n hn => ArpMessage.length?_append more hn
  | udp =>
    simp only [plan, hdrop]
    exact .last fun n hn => UdpHeader.length?_append more hn
  | icmp =>
    simp only [plan, hdrop]
    exact .last fun n hn => IcmpHeader.length?_append more hn fun h20 => hs ⟨rfl, h20 ▸ hn⟩
  | icmpv6 =>
    simp only [plan, hdrop]
    refine .last fun n hn => Icmpv6Header.length?_append more hn ?_
    rw [List.length_append, List.length_drop]
    rw [List.length_append] at hsmall
    omega

/-! ## All headers -/

/-- A timestamp message: the only ICMP header of 20 bytes. -/
def IsTimestamp (r : HeaderRecord) : Prop := r.id = .icmp ∧ r.size = 20

theorem plan_of_atTimestamp (h : AtTimestamp data s) :
    plan data s = .header .icmp s.offset 20 [] none := by
  obtain ⟨layer, offset⟩ := s
  obtain ⟨rfl, hlength⟩ := h
  simp only at hlength
  simp only [plan, hlength]
  rfl

theorem plan_append_of_atTimestamp (h : AtTimestamp data s) (hmore : more ≠ []) :
    plan (data ++ more) s = .nothing := by
  obtain ⟨layer, offset⟩ := s
  obtain ⟨rfl, hlength⟩ := h
  have hlen := IcmpHeader.length_of_timestamp hlength
  rw [List.length_drop] at hlen
  simp only at hlength hlen
  simp only [plan, List.drop_append_of_le_length (show offset ≤ data.length by omega),
    IcmpHeader.length?_append_timestamp more hlength hmore]
  rfl

/-- The records of the front are the first ones of the whole, unless the front ends with a timestamp
message that something follows in the whole. -/
theorem readings_append (hsmall : (data ++ more).length ≤ 65535) (s : Station) :
    readings data s <+: readings (data ++ more) s ∨
      more ≠ [] ∧ ∃ r, IsTimestamp r ∧ readings data s = readings (data ++ more) s ++ [r] := by
  induction s using readings.induct data with
  | case1 s hnext =>
    rw [readings_of_next_eq_none hnext]
    by_cases hs : AtTimestamp data s
    · by_cases hmore : more = []
      · subst hmore
        rw [List.append_nil]
        exact .inl records_prefix_readings
      · refine .inr ⟨hmore, recordOf .icmp s.offset 20, ⟨rfl, size_recordOf (by omega)⟩, ?_⟩
        have hnothing := plan_append_of_atTimestamp hs hmore
        rw [readings_of_next_eq_none (by rw [hnothing]; rfl), hnothing, plan_of_atTimestamp hs]
        rfl
    · refine .inl ?_
      rcases grows_plan hsmall hs with ⟨hrecords, -⟩ | ⟨-, hrecords⟩
      · rw [← hrecords]
        exact records_prefix_readings
      · exact hrecords.trans records_prefix_readings
  | case2 s next hnext ih =>
    have hs : ¬ AtTimestamp data s := fun hs => by
      rw [plan_of_atTimestamp hs] at hnext
      cases hnext
    rcases grows_plan hsmall hs with ⟨hrecords, hsame⟩ | ⟨hnone, -⟩
    · have hnext' := hsame.trans hnext
      rw [readings_of_next_eq_some hnext, readings_of_next_eq_some hnext', hrecords]
      rcases ih with hfront | ⟨hmore, r, hr, hlast⟩
      · exact .inl ((List.prefix_append_right_inj _).2 hfront)
      · exact .inr ⟨hmore, r, hr, by rw [hlast, List.append_assoc]⟩
    · rw [hnext] at hnone
      cases hnone

/-! ## Timestamp messages end their frame -/

theorem exists_id_of_mem_optionRecords {idOf : Nat → HeaderId} {spans : List OptionSpan}
    {offset : Nat} {r : HeaderRecord} (h : r ∈ optionRecords idOf offset spans) :
    ∃ kind, r.id = idOf kind := by
  induction spans generalizing offset with
  | nil => cases h
  | cons span rest ih =>
    rcases List.mem_cons.1 h with rfl | h
    · exact ⟨span.kind, rfl⟩
    · exact ih h

theorem Action.Names.of_mem_records {p : HeaderId → Prop} {a : Action} (h : a.Names p)
    {r : HeaderRecord} (hr : r ∈ a.records) : p r.id := by
  cases a with
  | note id offset length =>
    obtain rfl := List.mem_singleton.1 hr
    exact h
  | noteOptions idOf offset spans =>
    obtain ⟨kind, hkind⟩ := exists_id_of_mem_optionRecords hr
    exact hkind ▸ h kind
  | frame | describe => cases hr

theorem layer_eq_icmp {r : HeaderRecord} (hr : r ∈ (plan data s).records) (hid : r.id = .icmp) :
    s.layer = .icmp := by
  obtain ⟨a, ha, hr⟩ := List.mem_flatMap.1 hr
  have hids : ∀ id ∈ s.layer.ids, id = .icmp → s.layer = .icmp := by
    cases s.layer with
    | ipv6Extension kind => cases kind <;> decide
    | ethernet | llc | vlan | arp | ipv4 | ipv6 | tcp | udp | icmp | icmpv6 | gre => decide
  have hnames : a.Names fun id => id = .icmp → s.layer = .icmp :=
    (does_of_mem_plan ha).names hids (fun _ hicmp => nomatch hicmp) fun _ hicmp => nomatch hicmp
  exact hnames.of_mem_records hr hid

theorem stop_of_mem_plan (hsmall : data.length ≤ 65535) {r : HeaderRecord}
    (hr : r ∈ (plan data s).records) (h : IsTimestamp r) : r.stop = data.length := by
  obtain ⟨layer, offset⟩ := s
  obtain rfl : layer = .icmp := layer_eq_icmp hr h.1
  cases hlength : IcmpHeader.length? (data.drop offset) with
  | none =>
    simp only [plan, hlength] at hr
    cases hr
  | some n =>
    simp only [plan, hlength] at hr
    obtain rfl : r = recordOf .icmp offset n := List.mem_singleton.1 hr
    have hbounds := IcmpHeader.length_bounds hlength
    rw [List.length_drop] at hbounds
    have hsize : (recordOf .icmp offset n).size = n := size_recordOf (by omega)
    have hstart : (recordOf .icmp offset n).start = offset := start_recordOf (by omega)
    obtain rfl : n = 20 := hsize.symm.trans h.2
    have hlen := IcmpHeader.length_of_timestamp hlength
    rw [List.length_drop] at hlen
    show (recordOf .icmp offset 20).start + (recordOf .icmp offset 20).size = data.length
    omega

theorem stop_of_mem_readings (hsmall : data.length ≤ 65535) {r : HeaderRecord}
    (hr : r ∈ readings data s) (htimestamp : IsTimestamp r) : r.stop = data.length := by
  induction s using readings.induct data with
  | case1 s hnext =>
    rw [readings_of_next_eq_none hnext] at hr
    exact stop_of_mem_plan hsmall hr htimestamp
  | case2 s next hnext ih =>
    rw [readings_of_next_eq_some hnext] at hr
    rcases List.mem_append.1 hr with hr | hr
    · exact stop_of_mem_plan hsmall hr htimestamp
    · exact ih hr

end Traversal

end FrameIndex
