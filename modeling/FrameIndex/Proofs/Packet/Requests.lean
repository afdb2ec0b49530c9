import FrameIndex.Packet
import FrameIndex.Proofs.ViewCache.Slots

/-!
# What can be asked of a packet

A packet serves requests one after another (`Packet.serve`, `Packet.run`): it is bound, unbound and
copied, takes further descriptors into its chain, and hands out cached views and takes them back.
Of a view that is handed out only its `Sight` counts: the header it is for, up to classes, whether
it is bound, where, and the bytes it holds.

A request for a cached view leaves everything but the cache as it was, and puts one slot into the
cache: with the view, in use, if that took its range, and otherwise with the view released again
(`Packet.fetch_eq_settled`). With that, `Packet.touched_serve` says once what any request does to
the slots of the cache. What is to hold of every slot after any requests is then shown for slots
that are kept, for those that are released, and for the one whose view was to be bound
(`Packet.Touched.every`).
-/

namespace FrameIndex

/-- What can be asked of a packet. -/
inductive Request where
  | bind (data descriptor : Bytes)
  | unbind
  | attach (d : Descriptor)
  | attachEncoded (layout : Layout) (bs : Bytes)
  | header (id : HeaderId) (depth : Nat)
  | demandHeader (id : HeaderId) (depth : Nat)
  | extension (parent ext : HeaderId) (depth : Nat)
  | releaseHeader (id : HeaderId)
  | releaseExtension (parent ext : HeaderId)
  /-- To go on with a copy. -/
  | clone

structure Sight where
  /-- The pack and the protocol of the header that the view is for. -/
  ordinal : Nat
  isBound : Bool
  placement : Option Placement
  data : Option Bytes

def Bindable.sight {V : Type} [Bindable V] (v : V) : Sight where
  ordinal := (Bindable.id v).ordinal
  isBound := Bindable.isBound v
  placement := Bindable.placement v
  data := Bindable.data v

inductive Answer where
  | done (result : Except PacketError Unit)
  | view (result : Except PacketError (Option Sight))

/-- The factory makes the view for a header, or for an extension of one, that is kept under the
key. -/
inductive ViewFactory.Makes {V : Type} (f : ViewFactory V) : CacheKey → V → Prop where
  | header (id : HeaderId) : Makes f (.ofHeader id) (f.make id)
  | extension (parent ext : HeaderId) :
      Makes f (.ofExtension parent ext) (f.makeExtension parent ext)

namespace Packet

variable {V : Type}

/-- The range is that of a header, or of an extension of one, whose view is kept under the key. -/
def Resolves (p : Packet V) : CacheKey → Placement → Prop
  | .header n, l => ∃ id depth, id.ordinal = n ∧ p.locate? id depth = some l
  | .extension m n, l =>
    ∃ parent ext depth, parent.ordinal = m ∧ ext.ordinal = n ∧
      p.index.extension? parent ext depth none = some l

structure SameSetup (p q : Packet V) : Prop where
  setup_eq : q.setup = p.setup
  layout_eq : q.chain.head.layout = p.chain.head.layout
  factory_eq : q.cache.factory = p.cache.factory

/-- The packets were set up alike and hold the same frame and the same descriptor of it. -/
structure SameFrame (p q : Packet V) : Prop where
  setup_eq : q.setup = p.setup
  data_eq : q.data = p.data
  head_eq : q.chain.head = p.chain.head
  factory_eq : q.cache.factory = p.cache.factory

theorem SameFrame.refl (p : Packet V) : SameFrame p p := ⟨rfl, rfl, rfl, rfl⟩

theorem SameSetup.trans {p q r : Packet V} (h : SameSetup p q) (h' : SameSetup q r) :
    SameSetup p r :=
  ⟨h'.setup_eq.trans h.setup_eq, h'.layout_eq.trans h.layout_eq,
    h'.factory_eq.trans h.factory_eq⟩

theorem SameFrame.sameSetup {p q : Packet V} (h : SameFrame p q) : SameSetup p q :=
  ⟨h.setup_eq, congrArg Descriptor.layout h.head_eq, h.factory_eq⟩

theorem head_attach (p : Packet V) (d : Descriptor) : (p.attach d).chain.head = p.chain.head := by
  unfold attach Chain.attach
  cases p.chain <;> rfl

theorem sameFrame_attach (p : Packet V) (d : Descriptor) : SameFrame p (p.attach d) :=
  ⟨rfl, rfl, p.head_attach d, rfl⟩

theorem sameFrame_clone (p : Packet V) : SameFrame p p.clone := by
  refine ⟨rfl, rfl, ?_, rfl⟩
  show p.chain.clone.head = p.chain.head
  rw [Chain.clone_eq]

variable [Bindable V]

def shown (result : Except PacketError (Option V)) : Answer :=
  .view (result.map (Option.map Bindable.sight))

def serve (p : Packet V) : Request → Packet V × Answer
  | .bind data descriptor => (p.bind data descriptor).map id .done
  | .unbind => (p.unbind, .done (.ok ()))
  | .attach d => (p.attach d, .done (.ok ()))
  | .attachEncoded layout bs =>
    match p.attachEncoded layout bs with
    | .ok q => (q, .done (.ok ()))
    | .error e => (p, .done (.error e))
  | .header id depth => (p.cachedHeader id depth).map (·) shown
  | .demandHeader id depth => (p.demandHeader id depth).map (·) fun r => shown (r.map some)
  | .extension parent ext depth => (p.cachedExtension parent ext depth).map (·) shown
  | .releaseHeader id => (p.release (.ofHeader id), .done (.ok ()))
  | .releaseExtension parent ext => (p.release (.ofExtension parent ext), .done (.ok ()))
  | .clone => (p.clone, .done (.ok ()))

/-- Serves requests in their order, and collects the answers. -/
def run (p : Packet V) : List Request → Packet V × List Answer
  | [] => (p, [])
  | r :: rest =>
    let (q, answers) := (p.serve r).1.run rest
    (q, (p.serve r).2 :: answers)

theorem run_of_serve {P : Packet V → Prop} (hserve : ∀ p r, P p → P (p.serve r).1) {p : Packet V}
    (h : P p) (requests : List Request) : P (p.run requests).1 := by
  induction requests generalizing p with
  | nil => exact h
  | cons r rest ih => exact ih (hserve p r h)

/-! ## Cached views -/

/-- The slot of a view that was to be bound: in use if it took its range, and else released. -/
def settled (factory : ViewFactory V) (bound : V × Except PacketError Unit) : CacheSlot V :=
  match bound.2 with
  | .ok () => ⟨bound.1, true⟩
  | .error _ => ViewCache.releasedSlot factory ⟨bound.1, true⟩

theorem settled_cases {factory : ViewFactory V} {bound : V × Except PacketError Unit}
    {C : CacheSlot V → Prop} (hok : bound.2 = .ok () → C ⟨bound.1, true⟩)
    (hreleased : C (ViewCache.releasedSlot factory ⟨bound.1, true⟩)) :
    C (settled factory bound) := by
  unfold settled
  split
  · rename_i hbound
    exact hok hbound
  · exact hreleased

/-- Asks for the view under a key, to be bound to a range if there is one. -/
def fetch (p : Packet V) (key : CacheKey) (fits : V → Bool) (make : V)
    (options : Placement → Option OptionRun) : Option Placement →
    Packet V × Except PacketError (Option V)
  | none => (p, .ok none)
  | some l => p.bindCached key (p.cache.acquire key fits make) (options l) l

theorem cachedHeader_eq_fetch (p : Packet V) (id : HeaderId) (depth : Nat) :
    p.cachedHeader id depth =
      p.fetch (.ofHeader id) (fun _ => true) (p.cache.factory.make id) (ownOptions? p.index)
        (p.locate? id depth) := by
  unfold cachedHeader
  cases p.locate? id depth <;> rfl

theorem cachedExtension_eq_fetch (p : Packet V) (parent ext : HeaderId) (depth : Nat) :
    p.cachedExtension parent ext depth =
      p.fetch (.ofExtension parent ext) (fun v => (Bindable.id v).agrees ext)
        (p.cache.factory.makeExtension parent ext) (fun _ => none)
        (p.index.extension? parent ext depth none) := by
  unfold cachedExtension
  cases p.index.extension? parent ext depth none <;> rfl

/-- The view that was found, whose absence is an error. -/
def requiredView (name : String) (depth : Nat) :
    Except PacketError (Option V) → Except PacketError V
  | .error e => .error e
  | .ok none => .error (.headerNotFound name depth)
  | .ok (some v) => .ok v

theorem demandHeader_eq_map (p : Packet V) (id : HeaderId) (depth : Nat) :
    p.demandHeader id depth = (p.cachedHeader id depth).map (·) (requiredView id.name depth) := by
  unfold demandHeader
  split <;> rename_i h <;> rw [h] <;> rfl

theorem fst_demandHeader (p : Packet V) (id : HeaderId) (depth : Nat) :
    (p.demandHeader id depth).1 = (p.cachedHeader id depth).1 := by
  rw [demandHeader_eq_map]
  rfl

section

variable (p : Packet V) (key : CacheKey) (fits : V → Bool) (make : V)
  (options : Placement → Option OptionRun)

/-- A request for a cached view puts one slot into the cache, and changes nothing else. -/
theorem fetch_eq_settled (l : Placement) :
    let bound := bindOnto p.data p.index (options l) l
      (Bindable.unbind (p.cache.acquire key fits make).2)
    ∃ cache : ViewCache V,
      p.fetch key fits make options (some l) =
        ({ p with cache }, bound.2.map fun _ => some bound.1) ∧
      cache.factory = p.cache.factory ∧
      cache.slots = ViewCache.put key (settled p.cache.factory bound) p.cache.slots := by
  intro bound
  have hbound : bindOnto p.data p.index (options l) l
      (Bindable.unbind (p.cache.acquire key fits make).2) = bound := rfl
  have hslots := p.cache.slots_updateView_acquire key fits make bound.1
  have hfactory : ((p.cache.acquire key fits make).1.updateView key fun _ => bound.1).factory =
      p.cache.factory := ViewCache.factory_acquire
  unfold fetch bindCached
  simp only [hbound]
  clear_value bound
  obtain ⟨v, result⟩ := bound
  cases result with
  | ok _ => exact ⟨_, rfl, hfactory, hslots⟩
  | error e =>
    refine ⟨_, rfl, ViewCache.factory_release.trans hfactory, ?_⟩
    rw [ViewCache.slots_release, hslots, hfactory, ViewCache.updateSlots_put]
    rfl

theorem fst_fetch (target : Option Placement) :
    ∃ cache : ViewCache V, (p.fetch key fits make options target).1 = { p with cache } ∧
      cache.factory = p.cache.factory := by
  cases target with
  | none => exact ⟨p.cache, rfl, rfl⟩
  | some l =>
    obtain ⟨cache, hfetch, hfactory, -⟩ := p.fetch_eq_settled key fits make options l
    exact ⟨cache, congrArg Prod.fst hfetch, hfactory⟩

theorem sameFrame_fetch (target : Option Placement) :
    SameFrame p (p.fetch key fits make options target).1 := by
  obtain ⟨cache, hfetch, hfactory⟩ := p.fst_fetch key fits make options target
  rw [hfetch]
  exact ⟨rfl, rfl, rfl, hfactory⟩

end

/-! ## What a request does to the cache -/

/-- What a request may have done to the slots of the cache. -/
inductive Touched (p : Packet V) : Packet V → Prop where
  | kept {q : Packet V} (same : SameFrame p q) (slots_eq : q.cache.slots = p.cache.slots) :
      Touched p q
  | emptied {q : Packet V} (same : SameFrame p q) (slots_eq : q.cache.slots = []) : Touched p q
  | released {q : Packet V} (same : SameFrame p q) (key : CacheKey)
      (slots_eq : q.cache.slots =
        ViewCache.updateSlots key (ViewCache.releasedSlot p.cache.factory) p.cache.slots) :
      Touched p q
  | fetched {q : Packet V} (same : SameFrame p q) {key : CacheKey} {v : V}
      {options : Option OptionRun} {l : Placement}
      (acquired : p.cache.factory.Makes key v ∨
        ∃ slot, (key, slot) ∈ p.cache.slots ∧ v = slot.view)
      (resolved : p.Resolves key l)
      (slots_eq : q.cache.slots = ViewCache.put key (settled p.cache.factory
        (bindOnto p.data p.index options l (Bindable.unbind v))) p.cache.slots) :
      Touched p q
  | freed {q : Packet V} (same : SameSetup p q)
      (slots_eq : q.cache.slots = p.cache.releaseInUse.slots) : Touched p q

theorem Touched.sameSetup {p q : Packet V} (h : Touched p q) : SameSetup p q := by
  cases h with
  | kept same _ => exact same.sameSetup
  | emptied same _ => exact same.sameSetup
  | released same _ _ => exact same.sameSetup
  | fetched same _ _ _ => exact same.sameSetup
  | freed same _ => exact same

/-- What holds of every slot before a request holds of every slot afterwards, if it holds of those
that are kept, of those that are released, and of the one whose view was to be bound. -/
theorem Touched.every {p q : Packet V} {P Q : CacheKey → CacheSlot V → Prop} (h : Touched p q)
    (hevery : ViewCache.Every P p.cache.slots)
    (hkept : SameFrame p q → ∀ key slot, P key slot → Q key slot)
    (hunused : ∀ key slot, P key slot → slot.inUse = false → Q key slot)
    (hreleased : ∀ key slot, P key slot → Q key (ViewCache.releasedSlot p.cache.factory slot))
    (hsettled : SameFrame p q → ∀ key v options l,
      (p.cache.factory.Makes key v ∨ ∃ slot, P key slot ∧ v = slot.view) → p.Resolves key l →
      Q key (settled p.cache.factory
        (bindOnto p.data p.index options l (Bindable.unbind v)))) :
    ViewCache.Every Q q.cache.slots := by
  cases h with
  | kept same hslots =>
    rw [hslots]
    exact fun e he => hkept same _ _ (hevery e he)
  | emptied _ hslots =>
    rw [hslots]
    exact ViewCache.every_nil
  | released same key hslots =>
    rw [hslots]
    exact ViewCache.every_updateSlots hevery (hkept same) (hreleased key)
  | @fetched same key v options l hacquired hresolved hslots =>
    -- a view that was there already is one of a slot that satisfied `P`
    have hv : p.cache.factory.Makes key v ∨ ∃ slot, P key slot ∧ v = slot.view := by
      rcases hacquired with hmade | ⟨slot, hmem, hview⟩
      · exact .inl hmade
      · exact .inr ⟨slot, hevery _ hmem, hview⟩
    rw [hslots]
    exact ViewCache.every_put (fun e he => hkept same _ _ (hevery e he))
      (hsettled same key v options l hv hresolved)
  | freed _ hslots =>
    rw [hslots]
    exact ViewCache.every_releaseInUse hevery hunused hreleased

theorem touched_fetch {p : Packet V} {key : CacheKey} {fits : V → Bool} {make : V}
    (hmake : p.cache.factory.Makes key make) (options : Placement → Option OptionRun)
    {target : Option Placement} (htarget : ∀ l, target = some l → p.Resolves key l) :
    Touched p (p.fetch key fits make options target).1 := by
  cases target with
  | none => exact .kept (.refl p) rfl
  | some l =>
    obtain ⟨cache, hfetch, hfactory, hslots⟩ := p.fetch_eq_settled key fits make options l
    rw [hfetch]
    refine .fetched ⟨rfl, rfl, rfl, hfactory⟩ ?_ (htarget l rfl) hslots
    rcases p.cache.acquired_cases key fits make with hnew | hold
    · rw [hnew]
      exact .inl hmake
    · exact .inr hold

theorem touched_cachedHeader (p : Packet V) (id : HeaderId) (depth : Nat) :
    Touched p (p.cachedHeader id depth).1 := by
  rw [cachedHeader_eq_fetch]
  exact touched_fetch (.header id) _ fun l hl => ⟨id, depth, rfl, hl⟩

theorem sameFrame_release (p : Packet V) (key : CacheKey) : SameFrame p (p.release key) :=
  ⟨rfl, rfl, rfl, ViewCache.factory_release⟩

theorem touched_release (p : Packet V) (key : CacheKey) : Touched p (p.release key) :=
  .released (p.sameFrame_release key) key ViewCache.slots_release

theorem bind_cases (p : Packet V) (data descriptor : Bytes) :
    (∃ e, p.bind data descriptor = (p.unbind, .error e)) ∨
      ∃ d : Descriptor, d.layout = p.chain.head.layout ∧
        p.bind data descriptor = ({ p.unbind with chain := .last d, data }, .ok ()) := by
  simp only [bind]
  split
  · exact .inl ⟨_, rfl⟩
  · rename_i d hd
    split
    · exact .inl ⟨_, rfl⟩
    · exact .inr ⟨d, (Descriptor.ofBytes_eq_ok_iff.1 hd).2.1, rfl⟩

theorem sameSetup_bind (p : Packet V) (data descriptor : Bytes) :
    SameSetup p (p.bind data descriptor).1 := by
  rcases p.bind_cases data descriptor with ⟨e, hbind⟩ | ⟨d, hlayout, hbind⟩
  · rw [hbind]
    exact ⟨rfl, rfl, rfl⟩
  · rw [hbind]
    exact ⟨rfl, hlayout, rfl⟩

theorem cache_bind (p : Packet V) (data descriptor : Bytes) :
    (p.bind data descriptor).1.cache = p.cache.releaseInUse := by
  rcases p.bind_cases data descriptor with ⟨e, hbind⟩ | ⟨d, -, hbind⟩
  · rw [hbind]
    rfl
  · rw [hbind]
    rfl

theorem touched_serve (p : Packet V) (r : Request) : Touched p (p.serve r).1 := by
  cases r with
  | bind data descriptor =>
    show Touched p (p.bind data descriptor).1
    exact .freed (p.sameSetup_bind data descriptor) (by rw [cache_bind])
  | unbind => exact .freed ⟨rfl, rfl, rfl⟩ rfl
  | attach d => exact .kept (p.sameFrame_attach d) rfl
  | attachEncoded layout bs =>
    simp only [serve, attachEncoded]
    cases Descriptor.ofBytes layout bs with
    | ok d => exact .kept (p.sameFrame_attach d) rfl
    | error refusal => exact .kept (.refl p) rfl
  | header id depth => exact p.touched_cachedHeader id depth
  | demandHeader id depth =>
    show Touched p (p.demandHeader id depth).1
    rw [fst_demandHeader]
    exact p.touched_cachedHeader id depth
  | extension parent ext depth =>
    show Touched p (p.cachedExtension parent ext depth).1
    rw [cachedExtension_eq_fetch]
    exact touched_fetch (.extension parent ext) _ fun l hl =>
      ⟨parent, ext, depth, rfl, rfl, hl⟩
  | releaseHeader id => exact p.touched_release _
  | releaseExtension parent ext => exact p.touched_release _
  | clone => exact .emptied p.sameFrame_clone rfl

theorem sameSetup_run (p : Packet V) (requests : List Request) :
    SameSetup p (p.run requests).1 :=
  run_of_serve (P := SameSetup p) (fun q r hq => hq.trans (q.touched_serve r).sameSetup)
    ⟨rfl, rfl, rfl⟩ requests

end Packet

end FrameIndex
