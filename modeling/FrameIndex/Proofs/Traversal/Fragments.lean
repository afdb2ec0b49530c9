import FrameIndex.Proofs.Traversal.Plans

/-!
# The datagrams of fragments

Fragment data belongs to an IP header that was recorded in front of it: to the IPv4 header that it
is read from, or to the IPv6 header that only extension headers separate from the fragment header
(`Traversal.FragmentOf`). Each step keeps that (`Traversal.Placed.step`). The data never goes beyond
the captured bytes. That of an IPv4 fragment stays within the datagram as well, and that of an IPv6
fragment takes everything that was captured behind its header (`Traversal.FragmentOf.reaches`).
-/

namespace FrameIndex

def FragmentPlace.stop (f : FragmentPlace) : Nat := f.dataOffset.toNat + f.dataLength.toNat

def Ipv6Header.payloadLength (rest : Bytes) : Nat := rest.be 4 2

theorem Ipv4Header.totalLength_eq {rest : Bytes} {h : Ipv4Header} (hr : read? rest = some h) :
    h.totalLength = rest.be 2 2 := by
  simp only [read?, Option.ite_none_right_eq_some, Option.some.injEq] at hr
  obtain ⟨-, rfl⟩ := hr
  rfl

theorem Layer.not_announces_extension {layer : Layer} (hipv6 : layer ≠ .ipv6)
    (hextension : ∀ kind, layer ≠ .ipv6Extension kind) (kind : Ipv6Extension) :
    ¬ layer.announces (.ipv6Extension kind) := by
  cases layer <;> simp_all [announces, ofEtherTypes, ofProtocols]

namespace Traversal

/-- The records end with an IPv6 header, and with extension headers that follow it. -/
def EndsInIpv6 (data : Bytes) (records : List HeaderRecord) (ip : HeaderRecord) : Prop :=
  ∃ before extensions, records = before ++ ip :: extensions ∧ ip.id = .ipv6 ∧
    (Ipv6Header.nextHeader? (data.drop ip.start)).isSome ∧
    ∀ r ∈ extensions, ∃ kind : Ipv6Extension, r.id = kind.id

/-- The fragment data is read from a recorded header, and belongs to a recorded IP header. -/
inductive FragmentOf (data : Bytes) :
    (records : List HeaderRecord) → (ip : HeaderRecord) → FragmentPlace → Prop where
  | ipv4 {records : List HeaderRecord} {ip : HeaderRecord} {h : Ipv4Header} (mem : ip ∈ records)
      (id_eq : ip.id = .ipv4) (read : Ipv4Header.read? (data.drop ip.start) = some h)
      (isFragment : h.isFragment = true) :
      FragmentOf data records ip (ipv4Fragment data ip.start h)
  | ipv6 {front after : List HeaderRecord} {ip header : HeaderRecord}
      (behind : EndsInIpv6 data front ip) (id_eq : header.id = HeaderId.ipv6Fragment)
      (fits : header.start + 8 ≤ data.length) :
      FragmentOf data (front ++ header :: after) ip (ipv6Fragment data header.start)

/-- Where the datagram of an IP header ends, as the header states it. An IPv6 header with a payload
length of zero does not. -/
def datagramStop? (data : Bytes) (ip : HeaderRecord) : Option Nat :=
  let rest := data.drop ip.start
  if ip.id = .ipv4 then some (ip.start + Bytes.be rest 2 2)
  else if Ipv6Header.payloadLength rest = 0 then none
  else some (ip.start + Ipv6Header.length + Ipv6Header.payloadLength rest)

def Contained (data : Bytes) (ip : HeaderRecord) (f : FragmentPlace) : Prop :=
  0 < f.dataLength.toNat → ∀ stop, datagramStop? data ip = some stop → f.stop ≤ stop

/-! ## Where the data ends -/

section

variable {data : Bytes} {records : List HeaderRecord} {ip : HeaderRecord} {f : FragmentPlace}

theorem stop_ipv4Fragment (hlen : data.length ≤ 65535) {offset : Nat} {h : Ipv4Header}
    (hread : Ipv4Header.read? (data.drop offset) = some h) :
    (ipv4Fragment data offset h).stop =
      min (offset + max h.totalLength h.length) data.length := by
  have hbounds := Ipv4Header.length_bounds hread
  rw [List.length_drop] at hbounds
  simp only [FragmentPlace.stop, ipv4Fragment, clampWord, UInt16.toNat_ofNat']
  omega

theorem stop_ipv6Fragment (hlen : data.length ≤ 65535) {offset : Nat}
    (hfits : offset + 8 ≤ data.length) : (ipv6Fragment data offset).stop = data.length := by
  simp only [FragmentPlace.stop, ipv6Fragment, clampWord, UInt16.toNat_ofNat']
  omega

theorem dataLength_ipv4Fragment_pos {offset : Nat} {h : Ipv4Header}
    (hpos : 0 < (ipv4Fragment data offset h).dataLength.toNat) : h.length < h.totalLength := by
  simp only [ipv4Fragment, clampWord, UInt16.toNat_ofNat'] at hpos
  omega

/-- How far the data of a fragment reaches. -/
structure Reaches (data : Bytes) (ip : HeaderRecord) (f : FragmentPlace) : Prop where
  captured : f.stop ≤ data.length
  ipv4 : ip.id = .ipv4 → Contained data ip f
  /-- Behind an IPv6 header, the data ends with the captured bytes. -/
  ipv6 : ip.id = .ipv6 → f.stop = data.length
  ip : ip.id = .ipv4 ∨ ip.id = .ipv6

theorem FragmentOf.reaches (h : FragmentOf data records ip f) (hlen : data.length ≤ 65535) :
    Reaches data ip f := by
  cases h with
  | ipv4 mem id_eq read isFragment =>
    have hstop := stop_ipv4Fragment hlen read
    constructor
    case captured => omega
    case ipv4 =>
      intro _ hpos stop hdatagram
      have htotal := dataLength_ipv4Fragment_pos hpos
      rw [datagramStop?, if_pos id_eq, ← Ipv4Header.totalLength_eq read] at hdatagram
      obtain rfl := Option.some.inj hdatagram
      omega
    case ipv6 =>
      intro h6
      rw [id_eq] at h6
      exact absurd h6 (by decide)
    case ip => exact .inl id_eq
  | ipv6 behind id_eq fits =>
    have hstop := stop_ipv6Fragment hlen fits
    obtain ⟨before, extensions, -, hip, -⟩ := behind
    constructor
    case captured => exact Nat.le_of_eq hstop
    case ipv4 =>
      intro h4
      rw [hip] at h4
      exact absurd h4 (by decide)
    case ipv6 => exact fun _ => hstop
    case ip => exact .inr hip

theorem FragmentOf.mem (h : FragmentOf data records ip f) : ip ∈ records := by
  cases h with
  | ipv4 mem id_eq read isFragment => exact mem
  | ipv6 behind id_eq fits =>
    obtain ⟨before, extensions, rfl, -⟩ := behind
    simp

/-! ## Steps -/

theorem EndsInIpv6.concat (h : EndsInIpv6 data records ip) {r : HeaderRecord}
    {kind : Ipv6Extension} (hid : r.id = kind.id) : EndsInIpv6 data (records ++ [r]) ip := by
  obtain ⟨before, extensions, rfl, hip, hread, hall⟩ := h
  refine ⟨before, extensions ++ [r], by simp, hip, hread, fun e he => ?_⟩
  rcases List.mem_append.1 he with he | he
  · exact hall e he
  · rw [List.mem_singleton.1 he]
    exact ⟨kind, hid⟩

theorem FragmentOf.append (h : FragmentOf data records ip f) (more : List HeaderRecord) :
    FragmentOf data (records ++ more) ip f := by
  cases h with
  | ipv4 mem id_eq read isFragment =>
    exact .ipv4 (List.mem_append_left more mem) id_eq read isFragment
  | ipv6 behind id_eq fits =>
    rw [List.append_assoc, List.cons_append]
    exact .ipv6 behind id_eq fits

end

/-- What is described of a fragment belongs to one of the records. -/
def Owned (data : Bytes) (t : Traversal) : Prop :=
  ∀ f, t.fragment = some f → ∃ ip, FragmentOf data t.draft.records ip f

/-- At a station: extension headers stand behind an IPv6 header. -/
def Placed (data : Bytes) (s : Station) (t : Traversal) : Prop :=
  t.Owned data ∧ ∀ kind, s.layer = .ipv6Extension kind → ∃ ip, EndsInIpv6 data t.draft.records ip

abbrev Keeps (data : Bytes) : Traversal × Option Station → Prop :=
  Outcome (Placed data) (Owned data)

section

variable {t t' : Traversal} {data : Bytes} {id : HeaderId} {offset : Nat}

theorem Owned.of_append (h : t.Owned data) (hfragment : t'.fragment = t.fragment)
    {more : List HeaderRecord} (hrecords : t'.draft.records = t.draft.records ++ more) :
    t'.Owned data := by
  intro f hf
  obtain ⟨ip, hof⟩ := h f (hfragment.symm.trans hf)
  rw [hrecords]
  exact ⟨ip, hof.append more⟩

theorem Owned.noteThen (h : t.Owned data) {length : Nat}
    {next : Traversal → Traversal × Option Station}
    (hnext : ∀ r, r.id = id → r.start = offset → (t.noted r).Owned data →
      Keeps data (next (t.noted r))) :
    Keeps data (t.noteThen id offset length next) := by
  unfold Traversal.noteThen
  rcases t.note_cases id offset length with ⟨-, htakes, hnote⟩ | ⟨-, refused, -, hnote⟩
  · simp only [hnote]
    exact hnext _ rfl htakes.start_eq (h.of_append rfl rfl)
  · simp only [hnote]
    exact h

theorem mem_noteOptions {r : HeaderRecord} (h : r ∈ t.draft.records) {idOf : Nat → HeaderId}
    {area : Bytes} : r ∈ (t.noteOptions idOf offset (OptionSpan.parse area)).draft.records := by
  obtain ⟨noted, rest, hafter, -⟩ :=
    t.exists_covers_noteOptions idOf offset (rfl : OptionSpan.parse area = _)
  rw [hafter]
  exact List.mem_append_left noted h

theorem Owned.act (h : t.Owned data) {a : Action} (ha : ∀ f, a ≠ .describe f) :
    (t.act a).1.Owned data := by
  obtain ⟨more, hrecords, -⟩ := adds_act a.names_true t
  exact h.of_append (fragment_act ha t) hrecords

theorem Owned.step_silent {s : Station} (h : t.Owned data) (hipv4 : s.layer ≠ .ipv4)
    (hipv6 : s.layer ≠ .ipv6) (hextension : ∀ kind, s.layer ≠ .ipv6Extension kind) :
    Keeps data (t.step data s) := by
  have howned : (t.step data s).1.Owned data :=
    step_keeps (fun _ ha _ ht => ht.act ((does_of_mem_plan ha).ne_describe hipv4 (hextension _))) h
  rcases hstep : t.step data s with ⟨t', _ | next⟩
  · rw [hstep] at howned
    exact howned
  · have hannounces := announces_of_step (congrArg Prod.snd hstep)
    rw [hstep] at howned
    refine ⟨howned, fun kind hkind => ?_⟩
    rw [hkind] at hannounces
    exact absurd hannounces (Layer.not_announces_extension hipv6 hextension kind)

theorem Owned.withFragment (h : t.Owned data) {ip : HeaderRecord} {header : Ipv4Header}
    (hmem : ip ∈ t.draft.records) (hid : ip.id = .ipv4)
    (hread : Ipv4Header.read? (data.drop ip.start) = some header) :
    (if header.isFragment then { t with fragment := some (ipv4Fragment data ip.start header) }
      else t).Owned data := by
  split
  · rename_i hfragment
    intro f hf
    obtain rfl := Option.some.inj hf
    exact ⟨ip, .ipv4 hmem hid hread hfragment⟩
  · exact h

theorem Owned.thenAt (h : t.Owned data) {layer : Option Layer}
    (hlayer : ∀ kind, layer = some (.ipv6Extension kind) →
      ∃ ip, EndsInIpv6 data t.draft.records ip) :
    Keeps data (t.thenAt layer offset) := by
  cases layer with
  | none => exact h
  | some layer => exact ⟨h, fun kind hkind => hlayer kind (congrArg some hkind)⟩

theorem Owned.ipv4Step (h : t.Owned data) : Keeps data (t.ipv4Step data offset) := by
  unfold Traversal.ipv4Step
  split
  · exact h
  · rename_i header hread
    refine h.noteThen fun r hid hstart ht => ?_
    have hmem : r ∈ (t.noted r).draft.records := List.mem_append_right _ List.mem_cons_self
    subst hstart
    have hnoted := ht.act (a := .noteOptions HeaderId.ipv4Option (r.start + 20)
      (OptionSpan.parse header.options)) nofun
    have hplaced := hnoted.withFragment (mem_noteOptions hmem) hid hread
    simp only
    split
    · refine hplaced.thenAt fun kind hkind => absurd (Layer.mem_ofProtocols hkind) ?_
      simp [Layer.ofProtocols]
    · exact hplaced

theorem Owned.ipv6Step (h : t.Owned data) : Keeps data (t.ipv6Step data offset) := by
  unfold Traversal.ipv6Step
  split
  · exact h
  · rename_i next hnext
    refine h.noteThen fun r hid hstart ht => ht.thenAt fun _ _ => ?_
    refine ⟨r, t.draft.records, [], rfl, hid, ?_, List.forall_mem_nil _⟩
    rw [hstart, hnext]
    rfl

theorem Placed.ipv6ExtensionStep {kind : Ipv6Extension}
    (h : t.Placed data ⟨.ipv6Extension kind, offset⟩) :
    Keeps data (t.ipv6ExtensionStep data kind offset) := by
  obtain ⟨howned, hbehind⟩ := h
  obtain ⟨ip, hip⟩ := hbehind kind rfl
  unfold Traversal.ipv6ExtensionStep
  simp only
  split
  · exact howned
  · rename_i hfits
    refine howned.noteThen fun r hid hstart ht => ?_
    have hlast : ∃ ip, EndsInIpv6 data (t.noted r).draft.records ip := ⟨ip, hip.concat hid⟩
    split
    · have hfragment : ({ t.noted r with fragment := some (ipv6Fragment data offset) } :
          Traversal).Owned data := by
        intro f hf
        obtain rfl := Option.some.inj hf
        subst hstart
        rw [List.length_drop] at hfits
        exact ⟨ip, .ipv6 hip hid (by simp only [Ipv6Extension.length] at hfits; omega)⟩
      split
      · exact hfragment.thenAt fun _ _ => hlast
      · exact hfragment
    · exact ht.thenAt fun _ _ => hlast

theorem Placed.step {s : Station} (h : t.Placed data s) : Keeps data (t.step data s) := by
  obtain ⟨layer, offset⟩ := s
  cases layer with
  | ipv4 => exact h.1.ipv4Step
  | ipv6 => exact h.1.ipv6Step
  | ipv6Extension kind => exact h.ipv6ExtensionStep
  | ethernet | llc | vlan | arp | tcp | udp | icmp | icmpv6 | gre =>
    exact h.1.step_silent nofun nofun nofun

theorem owned_start (limit : Option Nat) (data : Bytes) : (start limit data).Owned data :=
  fun _ hf => nomatch hf

theorem owned_ofEthernet (limit : Option Nat) (data : Bytes) :
    (ofEthernet limit data).Owned data := by
  have hstep : ∀ s (t : Traversal), t.Placed data s → Keeps data (t.step data s) :=
    fun s t h => h.step
  exact run_of_step hstep ⟨owned_start limit data, nofun⟩

end

end Traversal

end FrameIndex
