import FrameIndex.Packet
import FrameIndex.Type2.Draft
import FrameIndex.Proofs.HeaderIndex.Bounds
import FrameIndex.Proofs.Type2.Acceptance
import Mathlib.Tactic.SplitIfs

/-!
# A bound packet answers from the captured bytes only

A packet that was bound to a frame resolves nothing outside the captured bytes, whatever the
descriptor said: descriptors are accepted only if their records end within the capture length, and
bound only if the frame is that long. So a raw view never refuses a range that was looked up, and
holds exactly the bytes of that range (`Packet.confined_of_bind`).
-/

namespace FrameIndex

/-! ## Descriptors -/

theorem Descriptor.bounded_index (d : Descriptor) : d.index.Bounded := by
  intro r hr
  obtain ⟨layout, image, accepted⟩ := d
  cases layout with
  | pcap => cases hr
  | ipf => cases hr
  | type2 =>
    cases image with
    | none => simp [index, indexOf, bytes] at hr
    | some bs => exact (Type2.check_eq_ok_iff.1 (accepted bs rfl)).2.2.2 r hr

/-! ## Raw views -/

theorem Bytes.range?_eq_ok {frame : Bytes} {offset length : Nat}
    (h : offset + length ≤ frame.length) :
    frame.range? offset length = .ok (frame.slice offset length) :=
  if_neg (Nat.not_lt.2 h)

namespace RawView

/-- The view holds exactly the bytes of a range and of a run of options, if there is one. -/
structure Shows (v : RawView) (data : Bytes) (l : Placement) (run : Option OptionRun) : Prop where
  placement_eq : v.placement = some l
  bytes_eq : v.bytes = some (data.slice l.offset l.length)
  length_eq : (data.slice l.offset l.length).length = l.length
  run_eq : v.run = run
  options_eq : v.options = run.map fun run => data.slice run.offset run.length

def shown (id : HeaderId) (data : Bytes) (l : Placement) (run : Option OptionRun) : RawView where
  id
  placement := some l
  bytes := some (data.slice l.offset l.length)
  options := run.map fun run => data.slice run.offset run.length
  run

theorem shows_shown {data : Bytes} {l : Placement} (hl : l.stop ≤ data.length) (id : HeaderId)
    (run : Option OptionRun) : (shown id data l run).Shows data l run where
  placement_eq := rfl
  bytes_eq := rfl
  length_eq := by
    simp only [Placement.stop] at hl
    rw [Bytes.length_slice]
    omega
  run_eq := rfl
  options_eq := rfl

end RawView

namespace Packet

theorem bindOnto_unbind {data : Bytes} {ix : HeaderIndex} {options : Option OptionRun}
    {l : Placement} (hl : l.stop ≤ data.length)
    (hrun : ∀ run, options = some run → run.stop ≤ data.length) (v : RawView) :
    bindOnto data ix options l (Bindable.unbind v) = (.shown v.id data l options, .ok ()) := by
  have hbind : Bindable.bind data l (Bindable.unbind v) =
      (RawView.shown v.id data l none, .ok ()) := by
    show RawView.bind data l v.unbind = _
    rw [RawView.bind, Bytes.range?_eq_ok hl]
    rfl
  unfold bindOnto
  rw [hbind]
  cases options with
  | none => rfl
  | some run =>
    have hopts : Bindable.bindOptions data run (RawView.shown v.id data l none) =
        (RawView.shown v.id data l (some run), .ok ()) := by
      show RawView.bindOptions data run _ = _
      rw [RawView.bindOptions, Bytes.range?_eq_ok (hrun run rfl)]
      rfl
    simp only [hopts]

/-! ## Bound packets -/

section

variable {V : Type} [Bindable V]

theorem bind_eq_ok_iff {p q : Packet V} {data descriptor : Bytes} :
    p.bind data descriptor = (q, .ok ()) ↔
      ∃ d, Descriptor.ofBytes p.chain.head.layout descriptor = .ok d ∧
        d.index.captureLength ≤ data.length ∧ q = { p.unbind with chain := .last d, data } := by
  have hhead : p.unbind.chain.head.bind descriptor =
      Descriptor.ofBytes p.chain.head.layout descriptor := rfl
  simp only [bind, hhead]
  split
  · rename_i hd
    simp [hd]
  · rename_i d hd
    simp only [hd, Except.ok.injEq, exists_eq_left']
    split
    · rename_i hshort
      simp only [Prod.mk.injEq, reduceCtorEq, and_false, false_iff, not_and]
      omega
    · rename_i hlong
      simp only [Prod.mk.injEq, and_true, Nat.le_of_not_lt hlong, true_and]
      exact eq_comm

end

/-- Nothing that the packet answers lies outside its frame, and raw views are bound to exactly what
was looked up. -/
structure Confined (p : Packet RawView) : Prop where
  captureLength_le : p.index.captureLength ≤ p.data.length
  locate : ∀ id depth l, p.locate? id depth = some l → l.stop ≤ p.index.captureLength
  header : ∀ id depth l, p.index.header? id depth = some l → l.stop ≤ p.index.captureLength
  extension : ∀ id ext depth hint l, p.index.extension? id ext depth hint = some l →
    l.stop ≤ p.index.captureLength
  options : ∀ index run, p.index.options? index = some run → run.stop ≤ p.index.captureLength
  /-- A caller's view is bound whenever its header is there. -/
  bindHeader : ∀ v depth, ∃ w,
    p.bindHeaderIfAny v depth = (w, .ok (p.locate? v.id depth).isSome) ∧
      ∀ l, p.locate? v.id depth = some l → w.Shows p.data l (ownOptions? p.index l)
  bindExtension : ∀ parent v depth hint, ∃ w,
    p.bindExtensionIfAny parent v depth hint =
        (w, .ok (p.index.extension? parent v.id depth hint).isSome) ∧
      ∀ l, p.index.extension? parent v.id depth hint = some l → w.Shows p.data l none
  /-- A cached view is answered whenever its header is there. -/
  cachedHeader : ∀ id depth, ∃ q found, p.cachedHeader id depth = (q, .ok found) ∧
    Option.Rel (fun v l => v.Shows p.data l (ownOptions? p.index l)) found (p.locate? id depth)
  cachedExtension : ∀ parent ext depth, ∃ q found,
    p.cachedExtension parent ext depth = (q, .ok found) ∧
      Option.Rel (fun v l => v.Shows p.data l none) found (p.index.extension? parent ext depth none)

/-- The records end within the captured bytes, and the frame holds all of these. -/
structure Fits {V : Type} (p : Packet V) : Prop where
  bounded : p.index.Bounded
  captureLength_le : p.index.captureLength ≤ p.data.length

section

variable {V : Type} {p : Packet V}

theorem Fits.stop_locate?_le (h : p.Fits) {id : HeaderId} {depth : Nat} {l : Placement}
    (hl : p.locate? id depth = some l) : l.stop ≤ p.index.captureLength := by
  unfold locate? at hl
  split_ifs at hl
  · cases hl
    exact Nat.le_of_eq (HeaderIndex.stop_restFrom (Nat.zero_le _))
  · cases hl
    exact Nat.le_of_eq (HeaderIndex.stop_restFrom h.bounded.payloadStart_le)
  · exact h.bounded.stop_header?_le hl

theorem Fits.stop_ownOptions?_le (h : p.Fits) {l : Placement} {run : OptionRun}
    (hrun : ownOptions? p.index l = some run) : run.stop ≤ p.index.captureLength := by
  obtain ⟨index, -, hrun⟩ := Option.bind_eq_some_iff.1 hrun
  split at hrun
  · split at hrun
    · cases hrun
    · exact h.bounded.stop_options?_le hrun
  · cases hrun

end

theorem bindCaller_eq {p : Packet RawView} {options : Placement → Option OptionRun}
    {l : Option Placement} (hl : ∀ l', l = some l' → l'.stop ≤ p.data.length)
    (hrun : ∀ l' run, options l' = some run → run.stop ≤ p.data.length) (v : RawView) :
    ∃ w, p.bindCaller options l v = (w, .ok l.isSome) ∧
      ∀ l', l = some l' → w.Shows p.data l' (options l') := by
  cases l with
  | none => exact ⟨v.unbind, rfl, nofun⟩
  | some l =>
    refine ⟨.shown v.id p.data l (options l), ?_, ?_⟩
    · simp only [bindCaller, bindOnto_unbind (hl l rfl) (hrun l), Option.isSome_some]
    · rintro _ ⟨⟩
      exact RawView.shows_shown (hl l rfl) _ _

theorem bindCached_eq {p : Packet RawView} {options : Option OptionRun} {l : Placement}
    (hl : l.stop ≤ p.data.length) (hrun : ∀ run, options = some run → run.stop ≤ p.data.length)
    (key : CacheKey) (acquired : ViewCache RawView × RawView) :
    ∃ q v, p.bindCached key acquired options l = (q, .ok (some v)) ∧ v.Shows p.data l options := by
  simp only [bindCached, bindOnto_unbind hl hrun]
  exact ⟨_, _, rfl, RawView.shows_shown hl _ _⟩

theorem Fits.confined {p : Packet RawView} (h : p.Fits) : p.Confined := by
  have hcap := h.captureLength_le
  have hlocate : ∀ id depth l, p.locate? id depth = some l → l.stop ≤ p.index.captureLength :=
    fun _ _ _ => h.stop_locate?_le
  have hext : ∀ id ext depth hint l, p.index.extension? id ext depth hint = some l →
      l.stop ≤ p.index.captureLength := fun _ _ _ _ _ => h.bounded.stop_extension?_le
  have hown : ∀ l run, ownOptions? p.index l = some run → run.stop ≤ p.data.length :=
    fun _ _ hrun => Nat.le_trans (h.stop_ownOptions?_le hrun) hcap
  -- extensions are bound without options
  have hnone : ∀ run, (none : Option OptionRun) = some run → run.stop ≤ p.data.length := nofun
  constructor
  case captureLength_le => exact hcap
  case locate => exact hlocate
  case header => exact fun _ _ _ => h.bounded.stop_header?_le
  case extension => exact hext
  case options => exact fun _ _ => h.bounded.stop_options?_le
  case bindHeader =>
    intro v depth
    exact bindCaller_eq (fun l hl => Nat.le_trans (hlocate _ _ l hl) hcap) hown v
  case bindExtension =>
    intro parent v depth hint
    exact bindCaller_eq (fun l hl => Nat.le_trans (hext _ _ _ _ l hl) hcap) (fun _ => hnone) v
  case cachedHeader =>
    intro id depth
    unfold cachedHeader
    cases hl : p.locate? id depth with
    | none => exact ⟨p, none, rfl, .none⟩
    | some l =>
      obtain ⟨q, v, hq, hv⟩ := bindCached_eq (Nat.le_trans (hlocate _ _ l hl) hcap) (hown l)
        (.ofHeader id) (p.cache.acquireHeader id)
      exact ⟨q, some v, hq, .some hv⟩
  case cachedExtension =>
    intro parent ext depth
    unfold cachedExtension
    cases hl : p.index.extension? parent ext depth none with
    | none => exact ⟨p, none, rfl, .none⟩
    | some l =>
      obtain ⟨q, v, hq, hv⟩ := bindCached_eq (Nat.le_trans (hext _ _ _ _ l hl) hcap) hnone
        (.ofExtension parent ext) (p.cache.acquireExtension parent ext)
      exact ⟨q, some v, hq, .some hv⟩

/-- **A packet that was bound to a frame is confined to it.** This stays so as long as it keeps the
frame and its own descriptor: chained descriptors and cached views do not matter. -/
theorem confined_of_bind {p q q' : Packet RawView} {data descriptor : Bytes}
    (h : p.bind data descriptor = (q, .ok ())) (hdata : q'.data = q.data)
    (hhead : q'.chain.head = q.chain.head) : q'.data = data ∧ q'.Confined := by
  obtain ⟨d, -, hlong, rfl⟩ := bind_eq_ok_iff.1 h
  have hindex : q'.index = d.index := congrArg Descriptor.index hhead
  have hfits : q'.Fits := by
    refine ⟨hindex ▸ d.bounded_index, ?_⟩
    rw [hindex, hdata]
    exact hlong
  exact ⟨hdata, hfits.confined⟩

/-- A descriptor with two options behind an Ethernet header, the second of which ends in front of
the first. -/
def backwardOptions : Bytes :=
  Type2.Draft.encode {
    captureLength := 8
    records := [⟨.ethernet, 2, 4⟩, ⟨.tcpOption 1, 5, 1⟩, ⟨.tcpOption 2, 0, 2⟩] }

/-- Such options are accepted. Their run has no bytes, and the views are bound all the same. -/
theorem confined_of_bind_backwardOptions :
    ∃ q : Packet RawView,
      (unbound {} ViewFactory.raw).bind [1, 2, 3, 4, 5, 6, 7, 8] backwardOptions = (q, .ok ()) ∧
      q.index.options? 0 = some ⟨1, 2, 5, 0⟩ ∧
      q.data = [1, 2, 3, 4, 5, 6, 7, 8] ∧ q.Confined := by
  have h : (unbound {} ViewFactory.raw).bind [1, 2, 3, 4, 5, 6, 7, 8] backwardOptions =
      (((unbound {} ViewFactory.raw).bind [1, 2, 3, 4, 5, 6, 7, 8] backwardOptions).1, .ok ()) :=
    rfl
  obtain ⟨hdata, hconfined⟩ := confined_of_bind h rfl rfl
  exact ⟨_, h, rfl, hdata, hconfined⟩

end Packet

end FrameIndex
