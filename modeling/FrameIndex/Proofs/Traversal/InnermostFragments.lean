import FrameIndex.Proofs.Record.Latest
import FrameIndex.Proofs.Record.Tiling
import FrameIndex.Proofs.Traversal.Fragments
import FrameIndex.Proofs.Traversal.Plans

/-!
# Which fragment is described

A traversal describes what the last of its records says of a fragment, of those that say anything:
an IPv4 header that states an offset or announces more fragments, or a fragment header of IPv6
(`Traversal.Tells`). If that is not a first fragment, the run ends there, and only the options of
the IPv4 header are recorded behind it (`Traversal.Leaves`). Every step keeps both
(`Traversal.Tells.step`). So what is described belongs to the innermost IP header that has a
fragment (`Traversal.Tells.innermost`).
-/

namespace FrameIndex

def Ipv6Extension.all : List Ipv6Extension := [.hopByHop, .routing, .fragment, .destOptions, .auth]

theorem Ipv6Extension.mem_all (kind : Ipv6Extension) : kind ∈ all := by
  cases kind <;> decide

def HeaderId.isExtension (id : HeaderId) : Bool := Ipv6Extension.all.any (·.id == id)

theorem HeaderId.isExtension_iff {id : HeaderId} :
    id.isExtension = true ↔ ∃ kind : Ipv6Extension, id = kind.id := by
  rw [isExtension, List.any_eq_true]
  constructor
  · rintro ⟨kind, -, hkind⟩
    exact ⟨kind, (beq_iff_eq.1 hkind).symm⟩
  · rintro ⟨kind, rfl⟩
    exact ⟨kind, kind.mem_all, beq_self_eq_true _⟩

namespace HeaderRecord

/-- The extension headers that the records begin with. -/
def extensions (records : List HeaderRecord) : List HeaderRecord :=
  records.takeWhile (·.id.isExtension)

end HeaderRecord

namespace Traversal

open HeaderRecord (latest? latest?_concat latest?_append_of_silent latest?_eq_none_iff extensions
  append_eq_append_cons_cases)
open Type2.Draft (recordOf)

/-! ## What headers say of fragments -/

/-- What a header says of a fragment: an IPv4 header may, and a fragment header of IPv6 does. -/
def headerFragment? (data : Bytes) (r : HeaderRecord) : Option FragmentPlace :=
  if r.id = .ipv4 then
    ((Ipv4Header.read? (data.drop r.start)).filter (·.isFragment)).map (ipv4Fragment data r.start)
  else if r.id = HeaderId.ipv6Fragment then some (ipv6Fragment data r.start)
  else none

/-- The fragment of an IP header with records behind it: what an IPv4 header says itself, and what
the last fragment header among the extension headers of an IPv6 header says. -/
def ipFragment? (data : Bytes) (ip : HeaderRecord) (behind : List HeaderRecord) :
    Option FragmentPlace :=
  if ip.id = .ipv4 then headerFragment? data ip
  else if ip.id = .ipv6 then latest? (headerFragment? data) (extensions behind)
  else none

def Silent (id : HeaderId) : Prop := id ≠ .ipv4 ∧ id ≠ HeaderId.ipv6Fragment

instance (id : HeaderId) : Decidable (Silent id) := inferInstanceAs (Decidable (_ ∧ _))

theorem silent_of_isInner {id : HeaderId} (h : id.isInner = true) : Silent id := by
  constructor <;> rintro rfl <;> exact absurd h (by decide)

section

variable {data : Bytes} {r ip : HeaderRecord} {records behind : List HeaderRecord}

theorem headerFragment?_of_silent (h : Silent r.id) : headerFragment? data r = none := by
  rw [headerFragment?, if_neg h.1, if_neg h.2]

theorem headerFragment?_ipv4 {h : Ipv4Header} (hid : r.id = .ipv4)
    (hread : Ipv4Header.read? (data.drop r.start) = some h) :
    headerFragment? data r = if h.isFragment then some (ipv4Fragment data r.start h) else none := by
  rw [headerFragment?, if_pos hid, hread, Option.filter_some]
  split <;> rfl

theorem headerFragment?_fragment (hid : r.id = HeaderId.ipv6Fragment) :
    headerFragment? data r = some (ipv6Fragment data r.start) := by
  rw [headerFragment?, if_neg (by rw [hid]; decide), if_pos hid]

theorem ipFragment?_eq_none (hip : headerFragment? data ip = none)
    (hbehind : ∀ r ∈ behind, headerFragment? data r = none) :
    ipFragment? data ip behind = none := by
  unfold ipFragment?
  split
  · exact hip
  · split
    · exact latest?_eq_none_iff.2 fun r hr => hbehind r (List.takeWhile_subset _ hr)
    · rfl

theorem ipFragment?_of_isExtension (hr : r.id.isExtension = true) :
    ipFragment? data r behind = none := by
  obtain ⟨kind, hkind⟩ := HeaderId.isExtension_iff.1 hr
  rw [ipFragment?, hkind, if_neg (by cases kind <;> decide), if_neg (by cases kind <;> decide)]

theorem offset_ipv4Fragment_eq_zero_iff {offset : Nat} {h : Ipv4Header}
    (hread : Ipv4Header.read? (data.drop offset) = some h) :
    (ipv4Fragment data offset h).offset = 0 ↔ h.fragmentOffset = 0 := by
  have hle : h.fragmentOffset ≤ 65528 := by
    simp only [Ipv4Header.read?, Option.ite_none_right_eq_some, Option.some.injEq] at hread
    obtain ⟨-, rfl⟩ := hread
    simp only
    omega
  rw [ipv4Fragment, ← UInt16.toNat_inj, UInt16.toNat_ofNat', Nat.mod_eq_of_lt (by omega)]
  rfl

end

theorem silent_of_mem_ids {layer : Layer} (hipv4 : layer ≠ .ipv4)
    (hheader : layer ≠ .ipv6Extension .fragment) : ∀ id ∈ layer.ids, Silent id := by
  cases layer with
  | ipv4 => exact absurd rfl hipv4
  | ipv6Extension kind =>
    cases kind with
    | fragment => exact absurd rfl hheader
    | hopByHop | routing | destOptions | auth => decide
  | ethernet | llc | vlan | arp | ipv6 | tcp | udp | icmp | icmpv6 | gre => decide

/-! ## What a step leaves behind -/

/-- Every fragment header among the records stands behind an IPv6 header. -/
def HeadersPlaced (data : Bytes) (records : List HeaderRecord) : Prop :=
  ∀ front header behind, records = front ++ header :: behind →
    header.id = HeaderId.ipv6Fragment → ∃ ip, EndsInIpv6 data front ip

/-- What is described is what the last of the records says that says anything. -/
structure Tells (data : Bytes) (t : Traversal) : Prop where
  latest : t.fragment = latest? (headerFragment? data) t.draft.records
  placed : HeadersPlaced data t.draft.records

def OnlyFirst (t : Traversal) : Prop := ∀ f, t.fragment = some f → f.offset = 0

/-- The records end with the header that says this of its fragment, and with its options. -/
def EndsAt (data : Bytes) (records : List HeaderRecord) (f : FragmentPlace) : Prop :=
  ∃ front header behind, records = front ++ header :: behind ∧
    headerFragment? data header = some f ∧
    ∀ r ∈ behind, header.id = .ipv4 ∧ r.id.isInner = true

/-- A fragment that is not a first one ends the records. -/
def Ended (data : Bytes) (t : Traversal) : Prop :=
  t.OnlyFirst ∨ ∃ f, t.fragment = some f ∧ EndsAt data t.draft.records f

/-- The result of a step that goes on only in a first fragment. -/
def Leaves (data : Bytes) (result : Traversal × Option Station) : Prop :=
  result.1.Tells data ∧ result.1.Ended data ∧ (result.1.OnlyFirst ∨ result.2 = none)

section

variable {data : Bytes} {t : Traversal} {offset : Nat} {a : Action}

theorem HeadersPlaced.append {records more : List HeaderRecord} (h : HeadersPlaced data records)
    (hmore : ∀ front header behind, more = front ++ header :: behind →
      header.id = HeaderId.ipv6Fragment → ∃ ip, EndsInIpv6 data (records ++ front) ip) :
    HeadersPlaced data (records ++ more) := by
  intro front header behind hsplit hid
  rcases append_eq_append_cons_cases hsplit with ⟨rest, hrecords, -⟩ | ⟨extra, rfl, hbehind⟩
  · exact h front header rest hrecords hid
  · exact hmore extra header behind hbehind hid

theorem Tells.append_silent (h : t.Tells data) {t' : Traversal}
    (hfragment : t'.fragment = t.fragment) (hadds : t.Adds Silent t') : t'.Tells data := by
  obtain ⟨more, hrecords, hsilent⟩ := hadds
  constructor
  case latest =>
    rw [hfragment, hrecords, h.latest,
      latest?_append_of_silent fun r hr => headerFragment?_of_silent (hsilent r hr)]
  case placed =>
    rw [hrecords]
    refine h.placed.append fun front header behind hmore hid => ?_
    exact absurd hid (hsilent header (by rw [hmore]; simp)).2

theorem Tells.step_silent {s : Station} (h : t.Tells data) (hfirst : t.OnlyFirst)
    (hipv4 : s.layer ≠ .ipv4) (hheader : s.layer ≠ .ipv6Extension .fragment) :
    Leaves data (t.step data s) := by
  have hkept : (t.step data s).1.Tells data ∧ (t.step data s).1.OnlyFirst := by
    refine step_keeps (P := fun t => t.Tells data ∧ t.OnlyFirst) (fun a ha t ht => ?_)
      ⟨h, hfirst⟩
    have hdoes := does_of_mem_plan ha
    have hnames : a.Names Silent := hdoes.names (silent_of_mem_ids hipv4 hheader)
      (fun kind => silent_of_isInner (HeaderId.isInner_ipv4Option kind))
      fun kind => silent_of_isInner (HeaderId.isInner_tcpOption kind)
    have hsame := fragment_act (hdoes.ne_describe hipv4 hheader) t
    refine ⟨ht.1.append_silent hsame (adds_act hnames t), fun f hf => ?_⟩
    exact ht.2 f (hsame.symm.trans hf)
  exact ⟨hkept.1, .inl hkept.2, .inl hkept.2⟩

theorem Tells.withFragment (h : t.Tells data) {t' : Traversal} {r : HeaderRecord}
    {more : List HeaderRecord} (hrecords : t'.draft.records = t.draft.records ++ r :: more)
    (hfragment : t'.fragment = (headerFragment? data r).or t.fragment)
    (hsilent : ∀ later ∈ more, Silent later.id)
    (hplaced : r.id = HeaderId.ipv6Fragment → ∃ ip, EndsInIpv6 data t.draft.records ip) :
    t'.Tells data := by
  have hrecords' : t'.draft.records = (t.draft.records ++ [r]) ++ more := by simp [hrecords]
  constructor
  case latest =>
    rw [hfragment, hrecords', h.latest,
      latest?_append_of_silent fun r hr => headerFragment?_of_silent (hsilent r hr), latest?_concat]
  case placed =>
    rw [hrecords]
    refine h.placed.append fun front header behind hmore hid => ?_
    cases front with
    | nil =>
      obtain ⟨rfl, -⟩ := List.cons.inj hmore
      rw [List.append_nil]
      exact hplaced hid
    | cons first front =>
      obtain ⟨-, hmore⟩ := List.cons.inj hmore
      exact absurd hid (hsilent header (by rw [hmore]; simp)).2

/-- A header was recorded, and options of it if it is an IPv4 header. The step goes on unless the
header is that of a fragment which is not the first one. -/
theorem Tells.leaves (h : t.Tells data) (hfirst : t.OnlyFirst) {t' : Traversal} {r : HeaderRecord}
    {more : List HeaderRecord} {next : Option Station}
    (hrecords : t'.draft.records = t.draft.records ++ r :: more)
    (hfragment : t'.fragment = (headerFragment? data r).or t.fragment)
    (hmore : ∀ later ∈ more, r.id = .ipv4 ∧ later.id.isInner = true)
    (hplaced : r.id = HeaderId.ipv6Fragment → ∃ ip, EndsInIpv6 data t.draft.records ip)
    (hnext : ∀ f, headerFragment? data r = some f → f.offset ≠ 0 → next = none) :
    Leaves data (t', next) := by
  have htells := h.withFragment hrecords hfragment
    (fun later hlater => silent_of_isInner (hmore later hlater).2) hplaced
  cases htold : headerFragment? data r with
  | none =>
    have hfirst' : t'.OnlyFirst := fun f hf =>
      hfirst f (by rw [hfragment, htold] at hf; exact hf)
    exact ⟨htells, .inl hfirst', .inl hfirst'⟩
  | some f =>
    have hdescribed : t'.fragment = some f := by
      rw [hfragment, htold]
      rfl
    by_cases hzero : f.offset = 0
    · have hfirst' : t'.OnlyFirst := fun f' hf' => by
        rw [hdescribed] at hf'
        exact Option.some.inj hf' ▸ hzero
      exact ⟨htells, .inl hfirst', .inl hfirst'⟩
    · exact ⟨htells, .inr ⟨f, hdescribed, t.draft.records, r, more, hrecords, htold, hmore⟩,
        .inr (hnext f htold hzero)⟩

theorem Tells.leaves_same (h : t.Tells data) (hfirst : t.OnlyFirst) (refused : Option LayoutError) :
    Leaves data ({ t with refused }, none) :=
  ⟨⟨h.latest, h.placed⟩, .inl hfirst, .inr rfl⟩

theorem describe_eq {f : FragmentPlace} {r : HeaderRecord} {described : Bool}
    (htold : headerFragment? data r = if described then some f else none) (t : Traversal) :
    (if described then { t with fragment := some f } else t) =
      { t with fragment := (headerFragment? data r).or t.fragment } := by
  rw [htold]
  cases described <;> rfl

theorem Tells.ipv4Step (h : t.Tells data) (hfirst : t.OnlyFirst) :
    Leaves data (t.ipv4Step data offset) := by
  unfold Traversal.ipv4Step
  split
  · exact h.leaves_same hfirst t.refused
  rename_i header hread
  unfold Traversal.noteThen
  rcases t.note_cases .ipv4 offset header.length with ⟨-, htakes, hnote⟩ | ⟨-, refused, -, hnote⟩
  case inr =>
    rw [hnote]
    exact h.leaves_same hfirst refused
  rw [hnote]
  have hstart : (recordOf .ipv4 offset header.length).start = offset := htakes.start_eq
  generalize hr : recordOf .ipv4 offset header.length = r at hstart ⊢
  have hid : r.id = .ipv4 := hr ▸ rfl
  have htold : headerFragment? data r =
      if header.isFragment then some (ipv4Fragment data offset header) else none := by
    subst hstart
    exact headerFragment?_ipv4 hid hread
  obtain ⟨more, refused, hoptions, hids⟩ :=
    (t.noted r).exists_noteOptions_eq HeaderId.ipv4Option (offset + 20)
      (OptionSpan.parse header.options)
  have hmore : ∀ later ∈ more, r.id = .ipv4 ∧ later.id.isInner = true := fun later hlater => by
    obtain ⟨kind, hkind⟩ := hids later hlater
    exact ⟨hid, hkind ▸ HeaderId.isInner_ipv4Option kind⟩
  have hplaced : r.id = HeaderId.ipv6Fragment → ∃ ip, EndsInIpv6 data t.draft.records ip :=
    fun hid' => absurd (hid.symm.trans hid') (by decide)
  simp only [hoptions, describe_eq htold]
  split
  · rename_i hzero
    refine h.leaves hfirst ?_ rfl hmore hplaced fun f hf hne => ?_
    · simp [grown, noted]
    · rw [htold, Option.ite_none_right_eq_some] at hf
      obtain rfl := Option.some.inj hf.2
      exact absurd ((offset_ipv4Fragment_eq_zero_iff hread).2 hzero) hne
  · exact h.leaves hfirst (by simp [grown, noted]) rfl hmore hplaced fun _ _ _ => rfl

theorem Tells.fragmentStep (h : t.Tells data) (hfirst : t.OnlyFirst)
    (hip : ∃ ip, EndsInIpv6 data t.draft.records ip) :
    Leaves data (t.ipv6ExtensionStep data .fragment offset) := by
  unfold Traversal.ipv6ExtensionStep
  simp only
  split
  · exact h.leaves_same hfirst t.refused
  unfold Traversal.noteThen
  rcases t.note_cases Ipv6Extension.fragment.id offset
    (Ipv6Extension.fragment.length (data.drop offset)) with
    ⟨-, htakes, hnote⟩ | ⟨-, refused, -, hnote⟩
  case inr =>
    rw [hnote]
    exact h.leaves_same hfirst refused
  rw [hnote]
  have hstart := htakes.start_eq
  generalize hr : recordOf Ipv6Extension.fragment.id offset
    (Ipv6Extension.fragment.length (data.drop offset)) = r at hstart ⊢
  have htold : headerFragment? data r = some (ipv6Fragment data offset) := by
    subst hstart
    exact headerFragment?_fragment (hr ▸ rfl)
  simp only
  split
  · rename_i hzero
    refine h.leaves hfirst rfl ?_ (List.forall_mem_nil _) (fun _ => hip) fun f hf hne => ?_
    · rw [htold]
      rfl
    · rw [htold] at hf
      exact absurd (Option.some.inj hf ▸ hzero) hne
  · refine h.leaves hfirst rfl ?_ (List.forall_mem_nil _) (fun _ => hip) fun _ _ _ => rfl
    rw [htold]
    rfl

theorem Tells.step {s : Station} (h : t.Tells data) (hfirst : t.OnlyFirst)
    (hplaced : t.Placed data s) : Leaves data (t.step data s) := by
  by_cases hipv4 : s.layer = .ipv4
  · rw [Traversal.step, hipv4]
    exact h.ipv4Step hfirst
  · by_cases hheader : s.layer = .ipv6Extension .fragment
    · rw [Traversal.step, hheader]
      exact h.fragmentStep hfirst (hplaced.2 .fragment hheader)
    · exact h.step_silent hfirst hipv4 hheader

theorem tells_start (limit : Option Nat) (data : Bytes) : (start limit data).Tells data :=
  ⟨rfl, fun front _ _ hsplit => by cases front <;> cases hsplit⟩

/-- At a station: what was found so far goes on in a first fragment, if in any. -/
structure Going (data : Bytes) (s : Station) (t : Traversal) : Prop where
  placed : t.Placed data s
  tells : t.Tells data
  onlyFirst : t.OnlyFirst

theorem Going.step {s : Station} (h : Going data s t) :
    Outcome (Going data) (fun t => t.Tells data ∧ t.Ended data) (t.step data s) := by
  have hkeeps := h.placed.step
  obtain ⟨htells, hended, hgoes⟩ := h.tells.step h.onlyFirst h.placed
  rcases hstep : t.step data s with ⟨t', _ | next⟩
  · rw [hstep] at htells hended
    exact ⟨htells, hended⟩
  · rw [hstep] at hkeeps htells hgoes
    exact ⟨hkeeps, htells, hgoes.resolve_right nofun⟩

theorem going_start (limit : Option Nat) (data : Bytes) :
    Going data ⟨.ethernet, 0⟩ (start limit data) where
  placed := ⟨owned_start limit data, nofun⟩
  tells := tells_start limit data
  onlyFirst := nofun

theorem tells_ofEthernet (limit : Option Nat) (data : Bytes) :
    (ofEthernet limit data).Tells data ∧ (ofEthernet limit data).Ended data :=
  run_of_step (fun _ _ => Going.step) (going_start limit data)

/-! ## The header that describes it -/

/-- The IP header has the fragment, and no IP header behind it has one. -/
structure Innermost (data : Bytes) (f : FragmentPlace) (ip : HeaderRecord)
    (behind : List HeaderRecord) : Prop where
  fragment_eq : ipFragment? data ip behind = some f
  no_inner : ∀ between inner rest, behind = between ++ inner :: rest →
    ipFragment? data inner rest = none

theorem innermost_ipv4 {f : FragmentPlace} {r : HeaderRecord} {behind : List HeaderRecord}
    (hid : r.id = .ipv4) (htold : headerFragment? data r = some f)
    (hsilent : ∀ later ∈ behind, headerFragment? data later = none) :
    Innermost data f r behind := by
  constructor
  case fragment_eq => rw [ipFragment?, if_pos hid, htold]
  case no_inner =>
    rintro between inner rest rfl
    exact ipFragment?_eq_none (hsilent inner (by simp)) fun r hr => hsilent r (by simp [hr])

theorem innermost_ipv6 {f : FragmentPlace} {ip r : HeaderRecord} {front behind : List HeaderRecord}
    (hip : ip.id = .ipv6) (hfront : ∀ e ∈ front ++ [r], e.id.isExtension = true)
    (htold : headerFragment? data r = some f)
    (hsilent : ∀ later ∈ behind, headerFragment? data later = none) :
    Innermost data f ip (front ++ [r] ++ behind) := by
  constructor
  case fragment_eq =>
    have hextensions : extensions (front ++ [r] ++ behind) = front ++ [r] ++ extensions behind :=
      List.takeWhile_append_of_pos hfront
    have hsilent' : ∀ e ∈ extensions behind, headerFragment? data e = none :=
      fun e he => hsilent e (List.takeWhile_subset _ he)
    rw [ipFragment?, if_neg (by rw [hip]; decide), if_pos hip, hextensions,
      latest?_append_of_silent hsilent', latest?_concat, htold, Option.some_or]
  case no_inner =>
    intro between inner rest hsplit
    rcases append_eq_append_cons_cases hsplit with ⟨extra, hextra, -⟩ | ⟨extra, -, hbehind⟩
    · exact ipFragment?_of_isExtension (hfront inner (by rw [hextra]; simp))
    · subst hbehind
      exact ipFragment?_eq_none (hsilent inner (by simp)) fun r hr => hsilent r (by simp [hr])

theorem Tells.exists_innermost (h : t.Tells data) {f : FragmentPlace} {r : HeaderRecord}
    {front behind : List HeaderRecord} (hsplit : t.draft.records = front ++ r :: behind)
    (htold : headerFragment? data r = some f)
    (hsilent : ∀ later ∈ behind, headerFragment? data later = none) :
    r.id = .ipv4 ∧ Innermost data f r behind ∨
      r.id = HeaderId.ipv6Fragment ∧ ∃ before ip between, front = before ++ ip :: between ∧
        ip.id = .ipv6 ∧ (∀ e ∈ between, e.id.isExtension = true) ∧
        Innermost data f ip (between ++ [r] ++ behind) := by
  by_cases hipv4 : r.id = .ipv4
  · exact .inl ⟨hipv4, innermost_ipv4 hipv4 htold hsilent⟩
  have hheader : r.id = HeaderId.ipv6Fragment := by
    by_contra hheader
    rw [headerFragment?_of_silent ⟨hipv4, hheader⟩] at htold
    cases htold
  obtain ⟨ip, before, between, hfront, hip, -, hbetween⟩ := h.placed front r behind hsplit hheader
  have hextensions : ∀ e ∈ between, e.id.isExtension = true :=
    fun e he => HeaderId.isExtension_iff.2 (hbetween e he)
  refine .inr ⟨hheader, before, ip, between, hfront, hip, hextensions,
    innermost_ipv6 hip (fun e he => ?_) htold hsilent⟩
  rcases List.mem_append.1 he with he | he
  · exact hextensions e he
  · rw [List.mem_singleton.1 he, hheader]
    decide

/-- The records behind an IP header are those of options that lie in it, or they end with the
fragment header among its extension headers. -/
def NothingPast (ip : HeaderRecord) (behind : List HeaderRecord) : Prop :=
  (ip.id = .ipv4 ∧ ∀ r ∈ behind, r.id.isInner = true) ∨
    ip.id = .ipv6 ∧ ∃ between header, behind = between ++ [header] ∧
      header.id = HeaderId.ipv6Fragment ∧ ∀ r ∈ between, r.id.isExtension = true

/-- What is described belongs to the innermost IP header that has a fragment, and if that is not a
first fragment, no header is recorded behind it. -/
theorem Tells.innermost (h : t.Tells data) (hended : t.Ended data) {f : FragmentPlace}
    (hf : t.fragment = some f) :
    ∃ before ip behind, t.draft.records = before ++ ip :: behind ∧ Innermost data f ip behind ∧
      (f.offset ≠ 0 → NothingPast ip behind) := by
  -- the header that describes the fragment, and what is recorded behind it
  obtain ⟨front, r, behind, hsplit, htold, hsilent, hlast⟩ :
      ∃ front r behind, t.draft.records = front ++ r :: behind ∧
        headerFragment? data r = some f ∧
        (∀ later ∈ behind, headerFragment? data later = none) ∧
        (f.offset ≠ 0 → ∀ later ∈ behind, r.id = .ipv4 ∧ later.id.isInner = true) := by
    by_cases hzero : f.offset = 0
    · obtain ⟨front, r, behind, hsplit, htold, hsilent⟩ :=
        HeaderRecord.exists_of_latest?_eq_some (h.latest.symm.trans hf)
      exact ⟨front, r, behind, hsplit, htold, hsilent, fun hne => absurd hzero hne⟩
    · obtain ⟨f', hf', front, r, behind, hsplit, htold, hinner⟩ :=
        hended.resolve_left fun hfirst => hzero (hfirst f hf)
      obtain rfl : f' = f := Option.some.inj (hf'.symm.trans hf)
      exact ⟨front, r, behind, hsplit, htold,
        fun later hlater => headerFragment?_of_silent (silent_of_isInner (hinner later hlater).2),
        fun _ => hinner⟩
  rcases h.exists_innermost hsplit htold hsilent with ⟨hid, hinnermost⟩ |
    ⟨hid, before, ip, between, rfl, hip, hbetween, hinnermost⟩
  · exact ⟨front, r, behind, hsplit, hinnermost,
      fun hne => .inl ⟨hid, fun later hlater => (hlast hne later hlater).2⟩⟩
  · refine ⟨before, ip, between ++ [r] ++ behind, by simp [hsplit], hinnermost,
      fun hne => .inr ⟨hip, between, r, ?_, hid, hbetween⟩⟩
    have hnil : behind = [] := by
      refine List.eq_nil_iff_forall_not_mem.2 fun later hlater => ?_
      exact absurd (hid.symm.trans (hlast hne later hlater).1) (by decide)
    rw [hnil, List.append_nil]

theorem Tells.fragment_eq_none_iff (h : t.Tells data) (hended : t.Ended data) :
    t.fragment = none ↔ ∀ before ip behind, t.draft.records = before ++ ip :: behind →
      ipFragment? data ip behind = none := by
  constructor
  · intro hnone before ip behind hsplit
    have hsilent := latest?_eq_none_iff.1 (h.latest.symm.trans hnone)
    exact ipFragment?_eq_none (hsilent ip (by rw [hsplit]; simp))
      fun r hr => hsilent r (by rw [hsplit]; simp [hr])
  · intro hnone
    cases hf : t.fragment with
    | none => rfl
    | some f =>
      obtain ⟨before, ip, behind, hsplit, hinnermost, -⟩ := h.innermost hended hf
      have hsome := hinnermost.fragment_eq
      rw [hnone before ip behind hsplit] at hsome
      cases hsome

end

end Traversal

end FrameIndex
