import FrameIndex.Traversal.Step

/-!
What a step does.

The header at a station settles what a step does there: which headers it notes, what it says of the
link framing and of a fragment, and where it goes on (`Traversal.plan`). A step does these things
one after another and gives up at the first header that is refused (`Traversal.step_eq_carryOut`).
The headers that it notes adjoin one another (`Traversal.Adjoins`), and the next one is looked for
where they end. So every step that goes on moves to a larger offset (`Traversal.step_advances`).
-/

namespace FrameIndex

namespace Layer

/-- The identifiers under which the headers of a layer are noted. -/
def ids : Layer → List HeaderId
  | .ethernet => [.ethernet]
  | .llc => [.llc, .snap]
  | .vlan => [.vlan]
  | .arp => [.arp]
  | .ipv4 => [.ipv4]
  | .ipv6 => [.ipv6]
  | .ipv6Extension kind => [kind.id]
  | .tcp => [.tcp]
  | .udp => [.udp]
  | .icmp => [.icmp]
  | .icmpv6 => [.icmpv6]
  | .gre => [.gre]

/-- What an EtherType may announce. -/
def ofEtherTypes : List Layer := [.ipv4, .ipv6, .arp, .vlan]

/-- What a protocol number may announce. -/
def ofProtocols : List Layer := [.icmp, .ipv4, .tcp, .udp, .ipv6, .gre, .icmpv6]

/-- What a header of a layer may announce. -/
def announces (layer next : Layer) : Prop :=
  match layer with
  | .ethernet => next = .llc ∨ next ∈ ofEtherTypes
  | .llc | .vlan => next ∈ ofEtherTypes
  | .ipv4 => next ∈ ofProtocols
  | .ipv6 | .ipv6Extension _ => (∃ kind, next = .ipv6Extension kind) ∨ next ∈ ofProtocols
  | .gre => next = .ethernet ∨ next ∈ ofEtherTypes
  | .arp | .tcp | .udp | .icmp | .icmpv6 => False

theorem mem_ofEtherTypes {type : Nat} {layer : Layer} (h : ofEtherType? type = some layer) :
    layer ∈ ofEtherTypes := by
  unfold ofEtherType? at h
  split at h <;> cases h <;> decide

theorem mem_ofProtocols {protocol : Nat} {layer : Layer} (h : ofProtocol? protocol = some layer) :
    layer ∈ ofProtocols := by
  unfold ofProtocol? at h
  split at h <;> cases h <;> decide

theorem of_ofNextHeader? {next : Nat} {rest : Bytes} {layer : Layer}
    (h : ofNextHeader? next rest = some layer) :
    (∃ kind, layer = .ipv6Extension kind) ∨ layer ∈ ofProtocols := by
  unfold ofNextHeader? at h
  split at h
  · exact .inr (mem_ofProtocols h)
  · split at h
    · exact .inl ⟨_, (Option.some.inj h).symm⟩
    · exact .inr (mem_ofProtocols h)

end Layer

namespace Traversal

/-- One of the things that a step does. -/
inductive Action where
  /-- Says how the frame is framed. -/
  | frame (framing : LinkFraming)
  /-- Notes a header, or gives up. -/
  | note (id : HeaderId) (offset length : Nat)
  /-- Notes the options of an area, as far as it can. -/
  | noteOptions (idOf : Nat → HeaderId) (offset : Nat) (spans : List OptionSpan)
  /-- Says where fragment data lies. -/
  | describe (fragment : FragmentPlace)

/-- What a step does at a station, and where it goes on if no header is refused. -/
structure Plan where
  actions : List Action
  next : Option Station

namespace Plan

/-- There is no header. -/
def nothing : Plan := ⟨[], none⟩

/-- A header, what else is done with it, and the layer that begins where the header ends. -/
def header (id : HeaderId) (offset length : Nat) (others : List Action) (layer : Option Layer) :
    Plan :=
  ⟨.note id offset length :: others, layer.map fun layer => ⟨layer, offset + length⟩⟩

/-- A header that nothing is looked for behind, if there is one. -/
def last (id : HeaderId) (offset : Nat) : Option Nat → Plan
  | none => nothing
  | some length => header id offset length [] none

end Plan

/-- What the header at a station has a step do. -/
def plan (data : Bytes) (s : Station) : Plan :=
  let rest := data.drop s.offset
  match s.layer with
  | .ethernet =>
    match EthernetHeader.typeField? rest with
    | none => .nothing
    | some type =>
      if type < 0x0600 then .header .ethernet s.offset EthernetHeader.length [] (some .llc)
      else
        .header .ethernet s.offset EthernetHeader.length [.frame .ether] (Layer.ofEtherType? type)
  | .llc =>
    if rest.length < 3 then .nothing
    else if Bytes.byteAt rest 0 = 0xaa ∧ Bytes.byteAt rest 1 = 0xaa ∧ 8 ≤ rest.length then
      { actions := [.frame .llc, .note .llc s.offset 3, .frame .snap, .note .snap (s.offset + 3) 5]
        next := (Layer.ofEtherType? (Bytes.be rest 6 2)).map fun layer => ⟨layer, s.offset + 8⟩ }
    else ⟨[.frame .llc, .note .llc s.offset 3], none⟩
  | .vlan =>
    match VlanTag.typeField? rest with
    | none => .nothing
    | some type => .header .vlan s.offset VlanTag.length [] (Layer.ofEtherType? type)
  | .arp => .last .arp s.offset (ArpMessage.length? rest)
  | .ipv4 =>
    match Ipv4Header.read? rest with
    | none => .nothing
    | some h =>
      let options := .noteOptions HeaderId.ipv4Option (s.offset + 20) (OptionSpan.parse h.options)
      .header .ipv4 s.offset h.length
        (if h.isFragment then [options, .describe (ipv4Fragment data s.offset h)] else [options])
        (if h.fragmentOffset = 0 then Layer.ofProtocol? h.protocol else none)
  | .ipv6 =>
    match Ipv6Header.nextHeader? rest with
    | none => .nothing
    | some next =>
      .header .ipv6 s.offset Ipv6Header.length []
        (Layer.ofNextHeader? next (data.drop (s.offset + Ipv6Header.length)))
  | .ipv6Extension kind =>
    let length := kind.length rest
    let layer := Layer.ofNextHeader? (Bytes.byteAt rest 0) (data.drop (s.offset + length))
    let info := ipv6Fragment data s.offset
    if rest.length < length then .nothing
    else if kind = .fragment then
      .header kind.id s.offset length [.describe info] (if info.offset = 0 then layer else none)
    else .header kind.id s.offset length [] layer
  | .tcp =>
    match TcpHeader.read? rest with
    | none => .nothing
    | some h =>
      .header .tcp s.offset h.length
        [.noteOptions HeaderId.tcpOption (s.offset + 20) (OptionSpan.parse h.options)] none
  | .udp => .last .udp s.offset (UdpHeader.length? rest)
  | .icmp => .last .icmp s.offset (IcmpHeader.length? rest)
  | .icmpv6 => .last .icmpv6 s.offset (Icmpv6Header.length? rest)
  | .gre =>
    match GreHeader.read? rest with
    | none => .nothing
    | some h =>
      .header .gre s.offset h.length []
        (if h.protocol = GreHeader.bridgedEthernet then some .ethernet
          else Layer.ofEtherType? h.protocol)

/-- Does one thing, and tells whether to go on. -/
def act (t : Traversal) : Action → Traversal × Bool
  | .frame framing => (t.framed framing, true)
  | .note id offset length => t.note id offset length
  | .noteOptions idOf offset spans => (t.noteOptions idOf offset spans, true)
  | .describe fragment => ({ t with fragment := some fragment }, true)

/-- Does one thing after another, and gives up where it cannot go on. -/
def carryOut (t : Traversal) (next : Option Station) : List Action → Traversal × Option Station
  | [] => (t, next)
  | a :: rest =>
    match t.act a with
    | (t, true) => t.carryOut next rest
    | (t, false) => (t, none)

variable {t : Traversal} {data : Bytes} {s : Station} {next : Option Station} {a : Action}
  {rest : List Action}

theorem carryOut_of_done (h : (t.act a).2 = true) :
    t.carryOut next (a :: rest) = (t.act a).1.carryOut next rest := by
  rw [carryOut]
  rcases hact : t.act a with ⟨t', goes⟩
  rw [hact] at h
  cases h
  rfl

theorem carryOut_of_refused (h : (t.act a).2 = false) :
    t.carryOut next (a :: rest) = ((t.act a).1, none) := by
  rw [carryOut]
  rcases hact : t.act a with ⟨t', goes⟩
  rw [hact] at h
  cases h
  rfl

/-! ## Steps carry out their plans -/

theorem noteLast_eq_carryOut (id : HeaderId) (offset : Nat) (length : Option Nat) :
    t.noteLast id offset length =
      t.carryOut (Plan.last id offset length).next (Plan.last id offset length).actions := by
  cases length <;> rfl

section

variable (t : Traversal) (data : Bytes) (offset : Nat)

theorem ethernetStep_eq_carryOut :
    t.ethernetStep data offset =
      t.carryOut (plan data ⟨.ethernet, offset⟩).next (plan data ⟨.ethernet, offset⟩).actions := by
  simp only [ethernetStep, plan]
  cases EthernetHeader.typeField? (data.drop offset) with
  | none => rfl
  | some type =>
    by_cases htype : type < 0x0600
    · simp only [htype, if_true]
      rfl
    · simp only [htype, if_false]
      rfl

theorem llcStep_eq_carryOut :
    t.llcStep data offset =
      t.carryOut (plan data ⟨.llc, offset⟩).next (plan data ⟨.llc, offset⟩).actions := by
  simp only [llcStep, plan]
  by_cases hshort : (data.drop offset).length < 3
  · rw [if_pos hshort, if_pos hshort]
    rfl
  · rw [if_neg hshort, if_neg hshort]
    split <;> rfl

theorem vlanStep_eq_carryOut :
    t.vlanStep data offset =
      t.carryOut (plan data ⟨.vlan, offset⟩).next (plan data ⟨.vlan, offset⟩).actions := by
  simp only [vlanStep, plan]
  cases VlanTag.typeField? (data.drop offset) <;> rfl

theorem ipv4Step_eq_carryOut :
    t.ipv4Step data offset =
      t.carryOut (plan data ⟨.ipv4, offset⟩).next (plan data ⟨.ipv4, offset⟩).actions := by
  simp only [ipv4Step, plan]
  cases Ipv4Header.read? (data.drop offset) with
  | none => rfl
  | some h =>
    by_cases hfragment : h.isFragment = true <;> by_cases hfirst : h.fragmentOffset = 0
    all_goals
      simp only [hfragment, hfirst, if_true, if_false]
      rfl

theorem ipv6Step_eq_carryOut :
    t.ipv6Step data offset =
      t.carryOut (plan data ⟨.ipv6, offset⟩).next (plan data ⟨.ipv6, offset⟩).actions := by
  simp only [ipv6Step, plan]
  cases Ipv6Header.nextHeader? (data.drop offset) <;> rfl

theorem ipv6ExtensionStep_eq_carryOut (kind : Ipv6Extension) :
    t.ipv6ExtensionStep data kind offset =
      t.carryOut (plan data ⟨.ipv6Extension kind, offset⟩).next
        (plan data ⟨.ipv6Extension kind, offset⟩).actions := by
  simp only [ipv6ExtensionStep, plan]
  by_cases hshort : (data.drop offset).length < kind.length (data.drop offset)
  · rw [if_pos hshort, if_pos hshort]
    rfl
  · rw [if_neg hshort, if_neg hshort]
    cases kind with
    | fragment =>
      by_cases hfirst : (ipv6Fragment data offset).offset = 0
      · simp only [hfirst, if_true]
        rfl
      · simp only [hfirst, if_false]
        rfl
    | hopByHop | routing | destOptions | auth => rfl

theorem tcpStep_eq_carryOut :
    t.tcpStep data offset =
      t.carryOut (plan data ⟨.tcp, offset⟩).next (plan data ⟨.tcp, offset⟩).actions := by
  simp only [tcpStep, plan]
  cases TcpHeader.read? (data.drop offset) <;> rfl

theorem greStep_eq_carryOut :
    t.greStep data offset =
      t.carryOut (plan data ⟨.gre, offset⟩).next (plan data ⟨.gre, offset⟩).actions := by
  simp only [greStep, plan]
  cases GreHeader.read? (data.drop offset) <;> rfl

end

theorem step_eq_carryOut : t.step data s = t.carryOut (plan data s).next (plan data s).actions := by
  obtain ⟨layer, offset⟩ := s
  cases layer with
  | ethernet => exact ethernetStep_eq_carryOut t data offset
  | llc => exact llcStep_eq_carryOut t data offset
  | vlan => exact vlanStep_eq_carryOut t data offset
  | ipv4 => exact ipv4Step_eq_carryOut t data offset
  | ipv6 => exact ipv6Step_eq_carryOut t data offset
  | ipv6Extension kind => exact ipv6ExtensionStep_eq_carryOut t data offset kind
  | tcp => exact tcpStep_eq_carryOut t data offset
  | gre => exact greStep_eq_carryOut t data offset
  | arp | udp | icmp | icmpv6 => exact noteLast_eq_carryOut _ _ _

/-! ## The headers of a plan -/

/-- What is said of the framing or of a fragment, by a header of the layer. -/
def Action.IsRemark (layer : Layer) : Action → Prop
  | .frame _ => layer = .ethernet ∨ layer = .llc
  | .describe _ => layer = .ipv4 ∨ layer = .ipv6Extension .fragment
  | .note .. | .noteOptions .. => False

/-- The headers that are noted at a station lie behind one another from an offset on, and the next
header is looked for where the last one ends. -/
inductive Adjoins (data : Bytes) (s : Station) : Nat → List Action → Option Station → Prop where
  | done {stop : Nat} {next : Option Station}
      (goes : ∀ station ∈ next, s.offset < stop ∧ stop ≤ data.length ∧ station.offset = stop ∧
        s.layer.announces station.layer) :
      Adjoins data s stop [] next
  | remark {start : Nat} {a : Action} {rest : List Action} {next : Option Station}
      (remark : a.IsRemark s.layer) (behind : Adjoins data s start rest next) :
      Adjoins data s start (a :: rest) next
  | header {start length : Nat} {id : HeaderId} {rest : List Action} {next : Option Station}
      (id_mem : id ∈ s.layer.ids) (pos : 0 < length) (stop_le : start + length ≤ data.length)
      (behind : Adjoins data s (start + length) rest next) :
      Adjoins data s start (.note id start length :: rest) next
  /-- A header with its options, which take up what is left of it behind twenty bytes. -/
  | optioned {start length : Nat} {id : HeaderId} {idOf : Nat → HeaderId} {rest : List Action}
      {next : Option Station} (id_mem : id ∈ s.layer.ids) (pos : 0 < length)
      (stop_le : start + length ≤ data.length)
      (owns : s.layer = .ipv4 ∧ idOf = HeaderId.ipv4Option ∨
        s.layer = .tcp ∧ idOf = HeaderId.tcpOption)
      (behind : Adjoins data s (start + length) rest next) :
      Adjoins data s start
        (.note id start length ::
          .noteOptions idOf (start + 20)
            (OptionSpan.parse (Bytes.slice (data.drop start) 20 (length - 20))) :: rest)
        next

/-- The headers of a plan lie behind one another from its station on. -/
def Plan.Fits (data : Bytes) (s : Station) (p : Plan) : Prop :=
  Adjoins data s s.offset p.actions p.next

theorem fits_nothing : Plan.nothing.Fits data s := .done nofun

section

variable {id : HeaderId} {length : Nat} {others : List Action} {layer : Option Layer}

/-- Behind a header there may be remarks. -/
theorem adjoins_remarks {stop : Nat} (hlt : s.offset < stop) (hle : stop ≤ data.length)
    (hothers : ∀ a ∈ others, a.IsRemark s.layer)
    (hlayer : ∀ next ∈ layer, s.layer.announces next) :
    Adjoins data s stop others (layer.map fun layer => ⟨layer, stop⟩) := by
  induction others with
  | nil =>
    refine .done fun station hstation => ?_
    obtain ⟨next, hnext, rfl⟩ := Option.map_eq_some_iff.1 hstation
    exact ⟨hlt, hle, rfl, hlayer next hnext⟩
  | cons a rest ih =>
    obtain ⟨ha, hrest⟩ := List.forall_mem_cons.1 hothers
    exact .remark ha (ih hrest)

theorem fits_header (hid : id ∈ s.layer.ids) (hpos : 0 < length)
    (hle : length ≤ (data.drop s.offset).length) (hothers : ∀ a ∈ others, a.IsRemark s.layer)
    (hlayer : ∀ next ∈ layer, s.layer.announces next) :
    (Plan.header id s.offset length others layer).Fits data s := by
  rw [List.length_drop] at hle
  exact .header hid hpos (by omega) (adjoins_remarks (by omega) (by omega) hothers hlayer)

theorem fits_last {length : Option Nat} (hid : id ∈ s.layer.ids)
    (hlength : ∀ n ∈ length, 0 < n ∧ n ≤ (data.drop s.offset).length) :
    (Plan.last id s.offset length).Fits data s := by
  cases length with
  | none => exact fits_nothing
  | some n =>
    obtain ⟨hpos, hle⟩ := hlength n rfl
    exact fits_header hid hpos hle (List.forall_mem_nil _) nofun

theorem fits_optioned {idOf : Nat → HeaderId} {options : Bytes} (hid : id ∈ s.layer.ids)
    (hpos : 0 < length) (hle : length ≤ (data.drop s.offset).length)
    (howns : s.layer = .ipv4 ∧ idOf = HeaderId.ipv4Option ∨
      s.layer = .tcp ∧ idOf = HeaderId.tcpOption)
    (hoptions : options = Bytes.slice (data.drop s.offset) 20 (length - 20))
    (hothers : ∀ a ∈ others, a.IsRemark s.layer)
    (hlayer : ∀ next ∈ layer, s.layer.announces next) :
    (Plan.header id s.offset length
      (.noteOptions idOf (s.offset + 20) (OptionSpan.parse options) :: others) layer).Fits
        data s := by
  subst hoptions
  rw [List.length_drop] at hle
  exact .optioned hid hpos (by omega) howns
    (adjoins_remarks (by omega) (by omega) hothers hlayer)

end

section

variable (data : Bytes) (offset : Nat)

theorem fits_ethernet : (plan data ⟨.ethernet, offset⟩).Fits data ⟨.ethernet, offset⟩ := by
  simp only [plan]
  split
  · exact fits_nothing
  · rename_i type htype
    have hlen := EthernetHeader.length_le htype
    split
    · refine fits_header List.mem_cons_self (by decide) hlen (List.forall_mem_nil _) ?_
      rintro _ ⟨⟩
      exact .inl rfl
    · exact fits_header List.mem_cons_self (by decide) hlen
        (List.forall_mem_singleton.2 (.inl rfl)) fun _ h => .inr (Layer.mem_ofEtherTypes h)

theorem fits_llc : (plan data ⟨.llc, offset⟩).Fits data ⟨.llc, offset⟩ := by
  have hlen : (data.drop offset).length = data.length - offset := List.length_drop
  simp only [plan]
  split
  · exact fits_nothing
  · split
    · refine .remark (.inr rfl) (.header List.mem_cons_self (by decide) ?_
        (.remark (.inr rfl) (.header (List.mem_cons_of_mem _ List.mem_cons_self) (by decide) ?_ ?_)))
      · show offset + 3 ≤ _
        omega
      · show offset + 3 + 5 ≤ _
        omega
      · refine adjoins_remarks ?_ ?_ (List.forall_mem_nil _) fun _ h => Layer.mem_ofEtherTypes h
        · show offset < offset + 3 + 5
          omega
        · show offset + 3 + 5 ≤ _
          omega
    · refine .remark (.inr rfl) (.header List.mem_cons_self (by decide) ?_ (.done nofun))
      show offset + 3 ≤ _
      omega

theorem fits_vlan : (plan data ⟨.vlan, offset⟩).Fits data ⟨.vlan, offset⟩ := by
  simp only [plan]
  split
  · exact fits_nothing
  · rename_i type htype
    exact fits_header List.mem_cons_self (by decide) (VlanTag.length_le htype)
      (List.forall_mem_nil _) fun _ h => Layer.mem_ofEtherTypes h

theorem fits_ipv4 : (plan data ⟨.ipv4, offset⟩).Fits data ⟨.ipv4, offset⟩ := by
  simp only [plan]
  split
  · exact fits_nothing
  · rename_i header hread
    obtain ⟨hmin, hle⟩ := Ipv4Header.length_bounds hread
    have hlayer : ∀ next ∈ (if header.fragmentOffset = 0 then Layer.ofProtocol? header.protocol
        else none), Layer.announces .ipv4 next := fun next h =>
      Layer.mem_ofProtocols (Option.ite_none_right_eq_some.1 h).2
    split
    · exact fits_optioned List.mem_cons_self (by omega) hle (.inl ⟨rfl, rfl⟩)
        (Ipv4Header.options_eq hread) (List.forall_mem_singleton.2 (.inl rfl)) hlayer
    · exact fits_optioned List.mem_cons_self (by omega) hle (.inl ⟨rfl, rfl⟩)
        (Ipv4Header.options_eq hread) (List.forall_mem_nil _) hlayer

theorem fits_ipv6 : (plan data ⟨.ipv6, offset⟩).Fits data ⟨.ipv6, offset⟩ := by
  simp only [plan]
  split
  · exact fits_nothing
  · rename_i next hnext
    exact fits_header List.mem_cons_self (by decide) (Ipv6Header.length_le hnext)
      (List.forall_mem_nil _) fun _ h => Layer.of_ofNextHeader? h

theorem fits_ipv6Extension (kind : Ipv6Extension) :
    (plan data ⟨.ipv6Extension kind, offset⟩).Fits data ⟨.ipv6Extension kind, offset⟩ := by
  have hpos : 0 < kind.length (data.drop offset) :=
    Nat.lt_of_lt_of_le (by decide) (kind.minLength_le_length _)
  simp only [plan]
  split
  · exact fits_nothing
  · rename_i hshort
    have hle := Nat.le_of_not_lt hshort
    split
    · rename_i hkind
      refine fits_header List.mem_cons_self hpos hle
        (List.forall_mem_singleton.2 (.inr (congrArg Layer.ipv6Extension hkind))) fun _ h => ?_
      exact Layer.of_ofNextHeader? (Option.ite_none_right_eq_some.1 h).2
    · exact fits_header List.mem_cons_self hpos hle (List.forall_mem_nil _)
        fun _ h => Layer.of_ofNextHeader? h

theorem fits_tcp : (plan data ⟨.tcp, offset⟩).Fits data ⟨.tcp, offset⟩ := by
  simp only [plan]
  split
  · exact fits_nothing
  · rename_i header hread
    obtain ⟨hmin, hle⟩ := TcpHeader.length_bounds hread
    exact fits_optioned List.mem_cons_self (by omega) hle (.inr ⟨rfl, rfl⟩)
      (TcpHeader.options_eq hread) (List.forall_mem_nil _) nofun

theorem fits_gre : (plan data ⟨.gre, offset⟩).Fits data ⟨.gre, offset⟩ := by
  simp only [plan]
  split
  · exact fits_nothing
  · rename_i header hread
    obtain ⟨hmin, hle⟩ := GreHeader.length_bounds hread
    refine fits_header List.mem_cons_self (by omega) hle (List.forall_mem_nil _) fun next h => ?_
    split at h
    · exact .inl (Option.some.inj h).symm
    · exact .inr (Layer.mem_ofEtherTypes h)

theorem fits_plan (s : Station) : (plan data s).Fits data s := by
  obtain ⟨layer, offset⟩ := s
  cases layer with
  | ethernet => exact fits_ethernet data offset
  | llc => exact fits_llc data offset
  | vlan => exact fits_vlan data offset
  | arp => exact fits_last List.mem_cons_self fun _ => ArpMessage.length_bounds
  | ipv4 => exact fits_ipv4 data offset
  | ipv6 => exact fits_ipv6 data offset
  | ipv6Extension kind => exact fits_ipv6Extension data offset kind
  | tcp => exact fits_tcp data offset
  | udp => exact fits_last List.mem_cons_self fun _ => UdpHeader.length_bounds
  | icmp => exact fits_last List.mem_cons_self fun _ => IcmpHeader.length_bounds
  | icmpv6 => exact fits_last List.mem_cons_self fun _ => Icmpv6Header.length_bounds
  | gre => exact fits_gre data offset

end

/-! ## Where a step goes on -/

theorem Adjoins.goes {start : Nat} {actions : List Action} {station : Station}
    (h : Adjoins data s start actions (some station)) :
    s.offset < station.offset ∧ station.offset ≤ data.length ∧
      s.layer.announces station.layer := by
  generalize hnext : some station = next at h
  induction h with
  | done goes =>
    obtain ⟨hlt, hle, rfl, hannounces⟩ := goes station hnext.symm
    exact ⟨hlt, hle, hannounces⟩
  | remark remark behind ih => exact ih hnext
  | header id_mem pos stop_le behind ih => exact ih hnext
  | optioned id_mem pos stop_le owns behind ih => exact ih hnext

theorem plan_goes {station : Station} (h : (plan data s).next = some station) :
    s.offset < station.offset ∧ station.offset ≤ data.length ∧
      s.layer.announces station.layer := by
  have hfits := fits_plan data s
  rw [Plan.Fits, h] at hfits
  exact hfits.goes

theorem next_carryOut {actions : List Action} (t : Traversal) :
    (t.carryOut next actions).2 = next ∨ (t.carryOut next actions).2 = none := by
  induction actions generalizing t with
  | nil => exact .inl rfl
  | cons a rest ih =>
    rw [carryOut]
    rcases t.act a with ⟨t', _ | _⟩
    · exact .inr rfl
    · exact ih t'

/-- A step goes on where its plan says, or not at all. -/
theorem next_plan_of_step {station : Station} (h : (t.step data s).2 = some station) :
    (plan data s).next = some station := by
  rw [step_eq_carryOut] at h
  rcases @next_carryOut (plan data s).next (plan data s).actions t with hplan | hnone
  · exact hplan.symm.trans h
  · rw [hnone] at h
    cases h

theorem announces_of_step {station : Station} (h : (t.step data s).2 = some station) :
    s.layer.announces station.layer :=
  (plan_goes (next_plan_of_step h)).2.2

/-- A step that goes on moves to a larger offset, from one within the frame. -/
theorem step_advances {t' : Traversal} {station : Station}
    (h : t.step data s = (t', some station)) :
    s.offset < station.offset ∧ s.offset < data.length := by
  obtain ⟨hlt, hle, -⟩ := plan_goes (next_plan_of_step (congrArg Prod.snd h))
  exact ⟨hlt, Nat.lt_of_lt_of_le hlt hle⟩

end Traversal

end FrameIndex
