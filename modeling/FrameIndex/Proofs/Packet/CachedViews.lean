import FrameIndex.Proofs.Packet.Confinement
import FrameIndex.Proofs.Packet.Twins

/-!
# Cached views

Packets let go of the views that are in use, and of no others. So a view that is bound has to be in
use (`Packet.Marked`): then letting go leaves no view bound. Every request keeps this, the ones that
fail included, since a view that refuses its range is released at once
(`Packet.Marked.of_touched`).

A raw view that is bound is bound to the frame that the packet is bound to, and to a range that the
descriptor resolves for the key of the view (`Packet.Current`).
-/

namespace FrameIndex

variable {V : Type} [Bindable V]

/-- Views that are let go of are not bound any longer. -/
structure ViewFactory.LetsGo (f : ViewFactory V) : Prop where
  unbind : ∀ {key v}, f.Stems key v → Bindable.isBound (Bindable.unbind v) = false
  release : ∀ {key v}, f.Stems key v → Bindable.isBound v = false →
    Bindable.isBound (f.release v) = false

theorem GuardRules.letsGo_factory (rules : GuardRules) : rules.factory.LetsGo where
  unbind := by
    intro key v _
    cases v <;> rfl
  release _ h := h

theorem ViewFactory.LetsGo.isBound_releasedSlot {f : ViewFactory V} (h : f.LetsGo)
    {key : CacheKey} (slot : CacheSlot V) (hstems : f.Stems key slot.view) :
    Bindable.isBound (ViewCache.releasedSlot f slot).view = false := by
  have hunbound := h.unbind hstems
  rcases ViewCache.releasedSlot_cases f slot with hview | hview <;> rw [hview]
  · exact hunbound
  · exact h.release hstems.unbound hunbound

namespace Packet

/-! ## Views in use -/

section

variable {p q : Packet V} {key : CacheKey} {slot : CacheSlot V}

/-- The slot is in use if its view is bound. -/
def MarkedSlot (slot : CacheSlot V) : Prop := Bindable.isBound slot.view = true → slot.inUse = true

def FreeSlot (slot : CacheSlot V) : Prop :=
  Bindable.isBound slot.view = false ∧ slot.inUse = false

theorem FreeSlot.marked (h : FreeSlot slot) : MarkedSlot slot := by
  intro hbound
  rw [h.1] at hbound
  cases hbound

theorem free_releasedSlot {f : ViewFactory V} (hf : f.LetsGo) (slot : CacheSlot V)
    (hstems : f.Stems key slot.view) : FreeSlot (ViewCache.releasedSlot f slot) :=
  ⟨hf.isBound_releasedSlot slot hstems, rfl⟩

/-- Every cached view stems from the factory, and is in use if it is bound. -/
def Marked (p : Packet V) : Prop :=
  ViewCache.Every (fun key slot => p.cache.factory.Stems key slot.view ∧ MarkedSlot slot)
    p.cache.slots

theorem MarkedSlot.free (h : MarkedSlot slot) (hunused : slot.inUse = false) : FreeSlot slot := by
  refine ⟨Bool.eq_false_iff.2 fun hbound => ?_, hunused⟩
  rw [h hbound] at hunused
  cases hunused

theorem Marked.of_touched (h : p.Marked) (hf : p.cache.factory.LetsGo) (htouched : Touched p q) :
    q.Marked := by
  unfold Marked at h ⊢
  rw [htouched.sameSetup.factory_eq]
  refine htouched.every h (fun _ _ _ hslot => hslot) (fun _ _ hslot _ => hslot) ?_ ?_
  · intro key slot ⟨hstems, _⟩
    exact ⟨hstems.releasedSlot slot, (free_releasedSlot hf slot hstems).marked⟩
  · intro _ key v options l hv _
    have hstems : p.cache.factory.Stems key v :=
      ViewFactory.stems_of_acquired (hv.imp_right fun ⟨slot, hslot, hview⟩ =>
        ⟨slot, hslot.1, hview⟩)
    refine ⟨hstems.settled p.data p.index options l, ?_⟩
    -- in use if it took its range, and else unbound again
    refine settled_cases (fun _ _ => rfl) ?_
    exact (free_releasedSlot hf _ (hstems.unbound.bindOnto p.data p.index options l)).marked

/-- The packet has the cache entries of another, and none of the views is bound or in use. -/
structure LetGo (p q : Packet V) : Prop where
  free : ViewCache.Every (fun _ slot => FreeSlot slot) q.cache.slots
  keys : q.cache.slots.map Prod.fst = p.cache.slots.map Prod.fst

theorem Marked.letGo (h : p.Marked) (hf : p.cache.factory.LetsGo)
    (hcache : q.cache = p.cache.releaseInUse) : LetGo p q := by
  constructor
  · rw [hcache]
    refine ViewCache.every_releaseInUse h ?_ ?_
    · intro key slot ⟨_, hmarked⟩ hunused
      exact hmarked.free hunused
    · intro key slot ⟨hstems, _⟩
      exact free_releasedSlot hf slot hstems
  · rw [hcache]
    exact ViewCache.keys_releaseInUse

theorem marked_unbound (setup : PacketSetup) (factory : ViewFactory V) :
    (unbound setup factory).Marked := ViewCache.every_nil

theorem marked_run {factory : ViewFactory V} (hf : factory.LetsGo) (setup : PacketSetup)
    (requests : List Request) : ((unbound setup factory).run requests).1.Marked := by
  refine (run_of_serve (P := fun p => p.cache.factory = factory ∧ p.Marked) ?_
    ⟨rfl, marked_unbound setup factory⟩ requests).2
  intro p r ⟨hfactory, hp⟩
  have htouched := p.touched_serve r
  exact ⟨htouched.sameSetup.factory_eq.trans hfactory, hp.of_touched (hfactory ▸ hf) htouched⟩

end

/-! ## Raw views in use -/

section

variable {p q : Packet RawView} {key : CacheKey} {slot : CacheSlot RawView}

/-- If the view of the slot is bound, then to a range of the frame that the descriptor resolves, and
the view holds the bytes of that range. -/
def CurrentSlot (p : Packet RawView) (key : CacheKey) (slot : CacheSlot RawView) : Prop :=
  Bindable.isBound slot.view = true → ∃ l, p.Resolves key l ∧ slot.view.placement = some l ∧
    l.stop ≤ p.data.length ∧ slot.view.bytes = some (p.data.slice l.offset l.length)

theorem FreeSlot.current (h : FreeSlot slot) : CurrentSlot p key slot := by
  intro hbound
  rw [h.1] at hbound
  cases hbound

theorem SameFrame.resolves {l : Placement} (h : SameFrame p q) (hl : p.Resolves key l) :
    q.Resolves key l := by
  have hindex : q.index = p.index := congrArg Descriptor.index h.head_eq
  have hlocate : q.locate? = p.locate? := by
    funext id depth
    rw [locate?, locate?, isBound, isBound, hindex, h.head_eq]
  cases key with
  | header n => simpa only [Resolves, hlocate] using hl
  | extension m n => simpa only [Resolves, hindex] using hl

theorem SameFrame.current (h : SameFrame p q) (hslot : CurrentSlot p key slot) :
    CurrentSlot q key slot := by
  intro hbound
  obtain ⟨l, hl, hplacement, hstop, hbytes⟩ := hslot hbound
  rw [← h.data_eq] at hstop hbytes
  exact ⟨l, h.resolves hl, hplacement, hstop, hbytes⟩

theorem bindOnto_eq_ok {data : Bytes} {ix : HeaderIndex} {options : Option OptionRun}
    {l : Placement} {v w : RawView} (h : bindOnto data ix options l v = (w, .ok ())) :
    l.stop ≤ data.length ∧ w.placement = some l ∧
      w.bytes = some (data.slice l.offset l.length) := by
  by_cases hl : l.stop ≤ data.length
  · have hbind : Bindable.bind data l v =
        ({ v with bytes := some (data.slice l.offset l.length), placement := some l }, .ok ()) := by
      show RawView.bind data l v = _
      rw [RawView.bind, Bytes.range?_eq_ok hl]
    unfold bindOnto at h
    simp only [hbind] at h
    cases options with
    | none =>
      cases h
      exact ⟨hl, rfl, rfl⟩
    | some run =>
      have hrun : ∀ u : RawView, Bindable.bindOptions data run u = u.bindOptions data run :=
        fun _ => rfl
      simp only [hrun, RawView.bindOptions] at h
      cases hrange : data.range? run.offset run.length with
      | error fault =>
        rw [hrange] at h
        cases congrArg Prod.snd h
      | ok bytes =>
        rw [hrange] at h
        cases h
        exact ⟨hl, rfl, rfl⟩
  · have hshort : data.length < l.offset + l.length := Nat.lt_of_not_le hl
    have hbind : Bindable.bind data l v =
        (v, .error (.outOfRange l.offset l.stop data.length)) := by
      show RawView.bind data l v = _
      rw [RawView.bind, Bytes.range?, if_pos hshort]
      rfl
    rw [bindOnto, hbind] at h
    cases congrArg Prod.snd h

/-- Every view that is bound is in use, and bound to the frame. -/
def Current (p : Packet RawView) : Prop :=
  ViewCache.Every (fun key slot => MarkedSlot slot ∧ CurrentSlot p key slot) p.cache.slots

theorem Current.of_touched (h : p.Current) (hfactory : p.cache.factory = ViewFactory.raw)
    (htouched : Touched p q) : q.Current := by
  have hreleased : ∀ slot, FreeSlot (ViewCache.releasedSlot p.cache.factory slot) := by
    intro slot
    rw [hfactory]
    exact ⟨rfl, rfl⟩
  refine htouched.every h ?_ ?_ ?_ ?_
  · intro same key slot ⟨hmarked, hcurrent⟩
    exact ⟨hmarked, same.current hcurrent⟩
  · intro key slot ⟨hmarked, _⟩ hunused
    exact ⟨hmarked, (hmarked.free hunused).current⟩
  · intro key slot _
    exact ⟨(hreleased slot).marked, (hreleased slot).current⟩
  · intro same key v options l _ hresolved
    have hsettled := hreleased ⟨(bindOnto p.data p.index options l (Bindable.unbind v)).1, true⟩
    refine settled_cases (C := fun slot => MarkedSlot slot ∧ CurrentSlot q key slot) ?_
      ⟨hsettled.marked, hsettled.current⟩
    intro hok
    refine ⟨fun _ => rfl, fun _ => ?_⟩
    obtain ⟨hstop, hplacement, hbytes⟩ := bindOnto_eq_ok (Prod.ext rfl hok)
    rw [same.data_eq]
    exact ⟨l, same.resolves hresolved, hplacement, hstop, hbytes⟩

theorem current_run (setup : PacketSetup) (requests : List Request) :
    ((unbound setup ViewFactory.raw).run requests).1.Current := by
  have hnew : (unbound setup ViewFactory.raw).Current := ViewCache.every_nil
  refine (run_of_serve (P := fun p => p.cache.factory = ViewFactory.raw ∧ p.Current) ?_
    ⟨rfl, hnew⟩ requests).2
  intro p r ⟨hfactory, hp⟩
  have htouched := p.touched_serve r
  exact ⟨htouched.sameSetup.factory_eq.trans hfactory, hp.of_touched hfactory htouched⟩

end

/-- **Cached views that are bound are in use.** This is so after any requests. Once the packet is
unbound or bound again, with success or without, no view is bound or in use, and all entries are
still there. The raw views that are bound hold the bytes of the frame at a range that the descriptor
resolves for them. -/
theorem bound_views_are_in_use {factory : ViewFactory V} (hf : factory.LetsGo)
    (setup : PacketSetup) (requests : List Request) :
    let p := ((unbound setup factory).run requests).1
    let raw := ((unbound setup ViewFactory.raw).run requests).1
    ViewCache.Every (fun _ slot => MarkedSlot slot) p.cache.slots ∧
    LetGo p p.unbind ∧ (∀ data descriptor, LetGo p (p.bind data descriptor).1) ∧
    ViewCache.Every (CurrentSlot raw) raw.cache.slots := by
  intro p raw
  have hp : p.Marked := marked_run hf setup requests
  have hfactory : p.cache.factory = factory :=
    ((unbound setup factory).sameSetup_run requests).factory_eq
  have hgo : ∀ q : Packet V, q.cache = p.cache.releaseInUse → LetGo p q :=
    fun _ hcache => hp.letGo (hfactory ▸ hf) hcache
  have hraw : raw.Current := current_run setup requests
  refine ⟨fun e he => (hp e he).2, hgo _ rfl, ?_, fun e he => (hraw e he).2⟩
  intro data descriptor
  exact hgo _ (p.cache_bind data descriptor)

def bookmarking : GuardRules where
  bookmarks := [.frame]

/-- Requests for the view of a frame, which is returned, and for that of an option. -/
def optionRequests : List Request :=
  [.bind [1, 2, 3, 4, 5, 6, 7, 8] backwardOptions, .header .frame 0,
    .extension .ethernet (.tcpOption 1) 0, .releaseHeader .frame]

def optionPacket : Packet GuardedView :=
  ((unbound {} bookmarking.factory).run optionRequests).1

/-- `bound_views_are_in_use` at that packet: binding to a frame that is too short for its descriptor
fails, and lets go of the view of the option all the same. -/
theorem let_go_by_failed_bind :
    bookmarking.factory.LetsGo ∧
    optionPacket.cache.slots.map (fun e => (e.1, Bindable.isBound e.2.view, e.2.inUse)) =
      [(.ofHeader .frame, false, false),
        (.ofExtension .ethernet (.tcpOption 1), true, true)] ∧
    (optionPacket.bind [9, 9] backwardOptions).2 =
      .error (.descriptor (.captureLengthMismatch 8 2)) ∧
    LetGo optionPacket (optionPacket.bind [9, 9] backwardOptions).1 := by
  have hslots : optionPacket.cache.slots.map
      (fun e => (e.1, Bindable.isBound e.2.view, e.2.inUse)) =
        [(.ofHeader .frame, false, false),
          (.ofExtension .ethernet (.tcpOption 1), true, true)] := rfl
  have hshort : (optionPacket.bind [9, 9] backwardOptions).2 =
      .error (.descriptor (.captureLengthMismatch 8 2)) := rfl
  obtain ⟨-, -, hbind, -⟩ := bound_views_are_in_use bookmarking.letsGo_factory {} optionRequests
  exact ⟨bookmarking.letsGo_factory, hslots, hshort, hbind [9, 9] backwardOptions⟩

end Packet

end FrameIndex
