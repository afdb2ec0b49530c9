import FrameIndex.Proofs.IndexedFrame.Figures
import FrameIndex.Proofs.Inspection.Selection

/-!
# Inspections forget

An inspection binds one packet to frame after frame. What is reported of a frame is read off the
packet once it is bound to the frame, and then all that is left of the frames before is the cache:
a packet that was never bound reads the same (`IndexedFrame.sameReads_bindPacket`). So there is one
report of a frame for a layout and a filter (`Inspection.report`), and every inspection that is at
rest gives it and is at rest again (`Inspection.AtRest.inspect_eq`). So does a run of frames
(`Inspection.AtRest.ran`), and no run can be told from the next answer
(`Inspection.inspect_forgets`).
-/

namespace FrameIndex

namespace IndexedFrame

variable {V : Type} [Bindable V] {p q : Packet V} (d : IndexedFrame)

theorem bindPacket_cases (p : Packet V) :
    (d.bindPacket p).1 = (p.bind d.data d.descriptor).1 ∨
      ∃ fragment, (d.bindPacket p).1 = (p.bind d.data d.descriptor).1.attach fragment := by
  unfold bindPacket
  obtain ⟨p', result⟩ := p.bind d.data d.descriptor
  cases result with
  | error e => exact .inl rfl
  | ok _ =>
    cases d.fragment with
    | none => exact .inl rfl
    | some bs =>
      simp only [Packet.attachEncoded]
      cases Descriptor.ofBytes .ipf bs with
      | error refusal => exact .inl rfl
      | ok fragment => exact .inr ⟨fragment, rfl⟩

theorem sameSetup_bindPacket (p : Packet V) : Packet.SameSetup p (d.bindPacket p).1 := by
  have hsetup := p.sameSetup_bind d.data d.descriptor
  rcases d.bindPacket_cases p with hbind | ⟨fragment, hbind⟩
  · rw [hbind]
    exact hsetup
  · rw [hbind]
    exact ⟨hsetup.setup_eq, (congrArg Descriptor.layout (Packet.head_attach _ _)).trans
      hsetup.layout_eq, hsetup.factory_eq⟩

theorem idle_bindPacket (p : Packet V) : (d.bindPacket p).1.Idle := by
  have hcache : (d.bindPacket p).1.cache = p.cache.releaseInUse := by
    rw [← p.cache_bind d.data d.descriptor]
    rcases d.bindPacket_cases p with hbind | ⟨fragment, hbind⟩
    · rw [hbind]
    · rw [hbind]
      rfl
  unfold Packet.Idle
  rw [hcache]
  exact p.cache.inUse_releaseInUse

/-- What is read of a packet that is bound to a frame depends on how the packet was set up, and on
nothing that it was bound to before. -/
theorem sameReads_bindPacket (hsetup : p.setup = q.setup)
    (hlayout : p.chain.head.layout = q.chain.head.layout) :
    Packet.SameReads (d.bindPacket p).1 (d.bindPacket q).1 := by
  obtain ⟨hresult, hreads⟩ := Packet.sameReads_bind hsetup hlayout d.data d.descriptor
  unfold bindPacket
  rcases hp : p.bind d.data d.descriptor with ⟨p', result⟩
  rcases hq : q.bind d.data d.descriptor with ⟨q', result'⟩
  rw [hp, hq] at hresult hreads
  obtain rfl : result = result' := hresult
  cases result with
  | error e => exact hreads
  | ok _ =>
    cases d.fragment with
    | none => exact hreads
    | some bs =>
      simp only [Packet.attachEncoded]
      cases Descriptor.ofBytes .ipf bs with
      | error refusal => exact hreads
      | ok fragment => exact hreads.attach fragment

end IndexedFrame

namespace Inspection

open IndexedFrame

/-! ## The report of a frame -/

/-- A packet for a layout that is bound to a frame, and was bound to none before. -/
def firstBound (layout : Layout) (frame : Frame) : Packet RawView :=
  ((ofFrame layout frame).bindPacket (.unbound { layout } ViewFactory.raw)).1

def report (layout : Layout) (filter : Option HeaderId) (frame : Frame) : Option ReportRow :=
  let p := firstBound layout frame
  match filter with
  | none => some (row p frame.number [])
  | some id =>
    match occurrences p.data (p.locate? id) maxDepth 0 with
    | [] => none
    | found => some (row p frame.number found)

theorem row_eq {p q : Packet RawView} (h : p.SameReads q) (number : Nat)
    (selected : List HeaderMatch) : row q number selected = row p number selected := by
  obtain ⟨cache, rfl⟩ := h.exists_cache
  rfl

/-! ## One frame -/

/-- The inspection can take the next frame: its packet is one for the layout, and none of its views
is in use. -/
structure AtRest (i : Inspection) : Prop where
  isPacket : i.layout.isPacket = true
  layout_eq : i.packet.chain.head.layout = i.layout
  setup_eq : i.packet.setup = { layout := i.layout }
  idle : i.packet.Idle

variable {i : Inspection}

theorem atRest_of_create {layout : Layout} {filter : Option HeaderId}
    (h : create layout filter = .ok i) :
    i.AtRest ∧ i.layout = layout ∧ i.filter = filter ∧ i.frames = 0 ∧ i.shown = 0 := by
  cases layout with
  | ipf => cases h
  | pcap =>
    cases h
    exact ⟨⟨rfl, rfl, rfl, ViewCache.every_nil⟩, rfl, rfl, rfl, rfl⟩
  | type2 =>
    cases h
    exact ⟨⟨rfl, rfl, rfl, ViewCache.every_nil⟩, rfl, rfl, rfl, rfl⟩

/-- The inspection has counted one more frame, and its row if there was one. -/
def counted (i : Inspection) (packet : Packet RawView) (reported : Bool) : Inspection :=
  { i with packet, frames := i.frames + 1, shown := i.shown + if reported then 1 else 0 }

theorem AtRest.inspect_eq (h : i.AtRest) (frame : Frame) :
    ∃ packet,
      i.inspect frame =
        (i.counted packet (report i.layout i.filter frame).isSome,
          .ok (report i.layout i.filter frame)) ∧
      (i.counted packet (report i.layout i.filter frame).isSome).AtRest := by
  have hlayout : (ofFrame i.layout frame).layout = i.layout := layout_ofFrame h.isPacket frame
  obtain ⟨q, hbind, hholds⟩ := exists_holds_ofFrame i.layout frame (h.layout_eq.trans hlayout.symm)
  have hsetup := (ofFrame i.layout frame).sameSetup_bindPacket i.packet
  have hidle := (ofFrame i.layout frame).idle_bindPacket i.packet
  have hreads : Packet.SameReads (firstBound i.layout frame) _ :=
    (ofFrame i.layout frame).sameReads_bindPacket h.setup_eq.symm h.layout_eq.symm
  rw [hbind] at hsetup hidle hreads
  -- the packet is as before, but for the frame that it is bound to
  have hrest : ∀ r reported, q.SameReads r → (q.Idle → r.Idle) → (i.counted r reported).AtRest := by
    intro r reported hr hidle'
    refine ⟨h.isPacket, ?_, ?_, hidle' hidle⟩
    · exact (congrArg (Descriptor.layout ∘ Chain.head) hr.chain_eq).symm.trans
        (hsetup.layout_eq.trans h.layout_eq)
    · exact hr.setup_eq.symm.trans (hsetup.setup_eq.trans h.setup_eq)
  obtain ⟨layout, filter, p, frames, shown⟩ := i
  simp only at hbind hreads hholds
  unfold Inspection.inspect report
  simp only [hbind]
  cases filter with
  | none =>
    rw [← row_eq hreads]
    exact ⟨q, rfl, hrest q _ ⟨rfl, rfl, rfl⟩ fun h => h⟩
  | some id =>
    obtain ⟨r, hselect, hr, hidle'⟩ := select_eq hholds.fits id maxDepth 0
    rw [← hreads.data_eq, funext (hreads.locate?_eq id)] at hselect
    simp only [hselect]
    cases occurrences (firstBound layout frame).data
        ((firstBound layout frame).locate? id) maxDepth 0 with
    | nil => exact ⟨r, rfl, hrest r _ hr hidle'⟩
    | cons first rest =>
      simp only [row_eq (hreads.trans hr)]
      exact ⟨r, rfl, hrest r _ hr hidle'⟩

/-! ## Frame after frame -/

def inspectAll (i : Inspection) :
    List Frame → Inspection × List (Except PacketError (Option ReportRow))
  | [] => (i, [])
  | frame :: rest =>
    let (last, results) := (i.inspect frame).1.inspectAll rest
    (last, (i.inspect frame).2 :: results)

def isRow : Except PacketError (Option ReportRow) → Bool
  | .ok (some _) => true
  | _ => false

/-- What an inspection is after a run of frames, from what it was before, and the results. -/
structure Ran (i : Inspection) (frames : List Frame) (last : Inspection)
    (results : List (Except PacketError (Option ReportRow))) : Prop where
  atRest : last.AtRest
  layout_eq : last.layout = i.layout
  filter_eq : last.filter = i.filter
  frames_eq : last.frames = i.frames + frames.length
  shown_eq : last.shown = i.shown + results.countP isRow
  results_eq : results = frames.map fun frame => .ok (report i.layout i.filter frame)

theorem AtRest.ran (h : i.AtRest) (frames : List Frame) :
    Ran i frames (i.inspectAll frames).1 (i.inspectAll frames).2 := by
  induction frames generalizing i with
  | nil => exact ⟨h, rfl, rfl, rfl, rfl, rfl⟩
  | cons frame rest ih =>
    obtain ⟨packet, hinspect, hnext⟩ := h.inspect_eq frame
    obtain ⟨hlast, hlayout, hfilter, hframes, hshown, hresults⟩ := ih hnext
    simp only [inspectAll, hinspect]
    refine ⟨hlast, hlayout, hfilter, ?_, ?_, ?_⟩
    · rw [hframes, List.length_cons]
      show i.frames + 1 + rest.length = _
      omega
    · rw [hshown, List.countP_cons]
      show i.shown + _ + _ = _
      cases report i.layout i.filter frame with
      | none => simp [isRow]
      | some row =>
        simp only [isRow, Option.isSome_some, if_true]
        omega
    · rw [hresults]
      rfl

theorem AtRest.snd_inspect_inspectAll (h : i.AtRest) (earlier : List Frame) (frame : Frame) :
    ((i.inspectAll earlier).1.inspect frame).2 = .ok (report i.layout i.filter frame) := by
  have hran := h.ran earlier
  obtain ⟨_, hinspect, -⟩ := hran.atRest.inspect_eq frame
  rw [hinspect, hran.layout_eq, hran.filter_eq]

/-- **Inspections forget.** Whatever frames were inspected before, a frame is answered as by an
inspection that has seen none, and without an error. All frames are counted, and all rows; and none
of the cached views is in use after a frame. -/
theorem inspect_forgets {layout : Layout} {filter : Option HeaderId}
    (hcreate : create layout filter = .ok i) (earlier : List Frame) (frame : Frame) :
    let used := (i.inspectAll earlier).1
    (∃ answer, (used.inspect frame).2 = .ok answer ∧ (i.inspect frame).2 = .ok answer) ∧
    used.frames = earlier.length ∧
    used.shown = (i.inspectAll earlier).2.countP isRow ∧
    (∀ key, used.packet.cache.isInUse key = false) ∧ used.packet.cache.figures.inUse = 0 := by
  intro used
  obtain ⟨hfresh, -, -, hframes, hshown⟩ := atRest_of_create hcreate
  have hran : Ran i earlier used (i.inspectAll earlier).2 := hfresh.ran earlier
  refine ⟨⟨report i.layout i.filter frame, ?_, ?_⟩, ?_, ?_, ?_, ?_⟩
  · exact hfresh.snd_inspect_inspectAll earlier frame
  · exact hfresh.snd_inspect_inspectAll [] frame
  · rw [hran.frames_eq, hframes, Nat.zero_add]
  · rw [hran.shown_eq, hshown, Nat.zero_add]
  · exact fun _ => ViewCache.isInUse_eq_false hran.atRest.idle
  · refine List.countP_eq_zero.2 fun e he => ?_
    simp [hran.atRest.idle e he]

/-- A UDP header without data behind it, as the first fragment of a datagram. -/
def firstFragment : Frame where
  number := 1
  timestamp := 0
  captured := 42
  onWire := 42
  linkType := Frame.ethernetLink
  data :=
    List.replicate 12 0 ++ [0x08, 0x00] ++
    [0x45, 0, 0, 28, 0, 7, 0x20, 0, 64, 17, 0, 0, 10, 0, 0, 1, 10, 0, 0, 2] ++
    [0, 53, 0, 53, 0, 16, 0, 0]

def arpRequest : Frame where
  number := 2
  timestamp := 0
  captured := 42
  onWire := 42
  linkType := Frame.ethernetLink
  data := List.replicate 12 0 ++ [0x08, 0x06, 0, 1, 8, 0, 6, 4, 0, 1] ++ List.replicate 20 0

def bareIpv4 : Frame where
  number := 3
  timestamp := 0
  captured := 34
  onWire := 34
  linkType := Frame.ethernetLink
  data :=
    List.replicate 12 0 ++ [0x08, 0x00] ++
    [0x45, 0, 0, 20, 0, 8, 0, 0, 64, 17, 0, 0, 10, 0, 0, 1, 10, 0, 0, 2]

def ipv4Inspection : Inspection where
  layout := .type2
  filter := some .ipv4
  packet := .unbound { layout := .type2 } ViewFactory.raw

/-- `inspect_forgets` after a fragment and a frame that was passed over: nothing is reported of the
fragment any longer. -/
theorem inspect_forgets_fragment :
    create .type2 (some .ipv4) = .ok ipv4Inspection ∧
    (ipv4Inspection.inspectAll [firstFragment, arpRequest]).1.frames = 2 ∧
    (ipv4Inspection.inspectAll [firstFragment, arpRequest]).1.shown = 1 ∧
    ((ipv4Inspection.inspectAll [firstFragment, arpRequest]).1.inspect bareIpv4).2 = .ok (some {
      frame := 3
      timestamp := some "1970-01-01T00:00:00+00:00"
      captureLength := 34
      wireLength := 34
      headers := [⟨"ethernet", 0, 14⟩, ⟨"ipv4", 14, 20⟩]
      payload := some ⟨34, 0⟩
      selected := [⟨0, 14, 20, "4500001400080000401100000a000001"⟩] }) := by
  have hcreate : create .type2 (some .ipv4) = .ok ipv4Inspection := rfl
  obtain ⟨⟨answer, hused, hfresh⟩, hframes, hshown, -⟩ :=
    inspect_forgets hcreate [firstFragment, arpRequest] bareIpv4
  have hrows : (ipv4Inspection.inspectAll [firstFragment, arpRequest]).2.countP isRow = 1 := by
    decide +kernel
  refine ⟨hcreate, hframes, hshown.trans hrows, ?_⟩
  rw [hused, ← hfresh]
  decide +kernel

end Inspection

end FrameIndex
