import FrameIndex.Proofs.Packet.Uniform

/-!
# Packets that differ in their caches

Two packets with the same frame and the same descriptors (`Packet.SameReads`) can be told apart by
the views they hand out only. These look the same as well if the views of both caches stem from what
the one factory makes for their keys (`Packet.Twins`), since a view is unbound before it is handed
out. Every request is answered alike then and keeps all this (`Packet.Twins.serve`), and so does
every run of requests (`Packet.Twins.run`).
-/

namespace FrameIndex

namespace Packet

variable {V : Type} {p q r : Packet V}

/-! ## Frame and descriptors -/

structure SameReads (p q : Packet V) : Prop where
  setup_eq : p.setup = q.setup
  data_eq : p.data = q.data
  chain_eq : p.chain = q.chain

theorem SameReads.symm (h : SameReads p q) : SameReads q p :=
  ⟨h.setup_eq.symm, h.data_eq.symm, h.chain_eq.symm⟩

theorem SameReads.trans (h : SameReads p q) (h' : SameReads q r) : SameReads p r :=
  ⟨h.setup_eq.trans h'.setup_eq, h.data_eq.trans h'.data_eq, h.chain_eq.trans h'.chain_eq⟩

theorem SameReads.exists_cache (h : SameReads p q) : ∃ cache, q = { p with cache } := by
  obtain ⟨hsetup, hdata, hchain⟩ := h
  refine ⟨q.cache, ?_⟩
  rw [hsetup, hdata, hchain]

theorem SameReads.attach (h : SameReads p q) (d : Descriptor) :
    SameReads (p.attach d) (q.attach d) :=
  ⟨h.setup_eq, h.data_eq, congrArg (Chain.attach · (.last d)) h.chain_eq⟩

theorem SameReads.index_eq (h : SameReads p q) : q.index = p.index := by
  rw [index, index, h.chain_eq]

theorem SameReads.locate?_eq (h : SameReads p q) (id : HeaderId) (depth : Nat) :
    q.locate? id depth = p.locate? id depth := by
  rw [locate?, locate?, isBound, isBound, h.index_eq, h.chain_eq]

variable [Bindable V]

theorem sameReads_bind (hsetup : p.setup = q.setup)
    (hlayout : p.chain.head.layout = q.chain.head.layout) (data descriptor : Bytes) :
    (p.bind data descriptor).2 = (q.bind data descriptor).2 ∧
      SameReads (p.bind data descriptor).1 (q.bind data descriptor).1 := by
  have hchain : p.unbind.chain = q.unbind.chain := by
    show Chain.last (.unbound p.chain.head.layout) = Chain.last (.unbound q.chain.head.layout)
    rw [hlayout]
  simp only [bind, hchain]
  split
  · exact ⟨rfl, hsetup, rfl, hchain⟩
  · split
    · exact ⟨rfl, hsetup, rfl, hchain⟩
    · exact ⟨rfl, hsetup, rfl, rfl⟩

theorem SameReads.serve_attachEncoded (h : SameReads p q) (layout : Layout) (bs : Bytes) :
    (p.serve (.attachEncoded layout bs)).2 = (q.serve (.attachEncoded layout bs)).2 ∧
      SameReads (p.serve (.attachEncoded layout bs)).1 (q.serve (.attachEncoded layout bs)).1 := by
  simp only [serve, attachEncoded]
  cases Descriptor.ofBytes layout bs with
  | ok d => exact ⟨rfl, h.attach d⟩
  | error refusal => exact ⟨rfl, h⟩

theorem sameReads_fetch {key : CacheKey} {fits : V → Bool} {make : V}
    {options : Placement → Option OptionRun} {target : Option Placement} :
    SameReads (p.fetch key fits make options target).1 p := by
  obtain ⟨cache, hfetch, -⟩ := p.fst_fetch key fits make options target
  rw [hfetch]
  exact ⟨rfl, rfl, rfl⟩

/-! ## Cached views -/

/-- Every cached view stems from what the factory makes for its key. -/
def Stemming (p : Packet V) : Prop :=
  ViewCache.Every (fun key slot => p.cache.factory.Stems key slot.view) p.cache.slots

theorem Stemming.of_touched (h : p.Stemming) (htouched : Touched p q) : q.Stemming := by
  unfold Stemming at h ⊢
  rw [htouched.sameSetup.factory_eq]
  refine htouched.every h (fun _ _ _ hslot => hslot) (fun _ _ hslot _ => hslot)
    (fun _ slot hslot => hslot.releasedSlot slot) ?_
  intro _ key v options l hv _
  exact (ViewFactory.stems_of_acquired hv).settled p.data p.index options l

theorem stemming_run (setup : PacketSetup) (factory : ViewFactory V) (requests : List Request) :
    ((unbound setup factory).run requests).1.Stemming := by
  have hnew : (unbound setup factory).Stemming := ViewCache.every_nil
  exact run_of_serve (P := Stemming) (fun q r hq => hq.of_touched (q.touched_serve r)) hnew requests

theorem Stemming.acquired (h : p.Stemming) {key : CacheKey} {fits : V → Bool} {make : V}
    (hmake : p.cache.factory.Makes key make) :
    p.cache.factory.Stems key (p.cache.acquire key fits make).2 := by
  rcases p.cache.acquired_cases key fits make with hnew | ⟨slot, hmem, hold⟩
  · rw [hnew]
    exact .made hmake
  · rw [hold]
    exact h _ hmem

/-- The packets differ in their caches only, and in these by what became of the views. -/
structure Twins (p q : Packet V) : Prop extends SameReads p q where
  factory_eq : p.cache.factory = q.cache.factory
  left : p.Stemming
  right : q.Stemming

theorem shown_map_some (result : Except PacketError Unit) (v : V) :
    shown (result.map fun _ => some v) =
      .view ((result.map fun _ => Bindable.sight v).map some) := by
  cases result <;> rfl

theorem Twins.fetch (h : Twins p q) (huniform : p.cache.factory.Uniform) {key : CacheKey}
    {fits : V → Bool} {make : V} (hmake : p.cache.factory.Makes key make)
    (options : Placement → Option OptionRun) (target : Option Placement) :
    shown (p.fetch key fits make options target).2 =
        shown (q.fetch key fits make options target).2 ∧
      SameReads (p.fetch key fits make options target).1
        (q.fetch key fits make options target).1 := by
  refine ⟨?_, sameReads_fetch.trans (h.toSameReads.trans sameReads_fetch.symm)⟩
  cases target with
  | none => rfl
  | some l =>
    obtain ⟨_, hp, -, -⟩ := p.fetch_eq_settled key fits make options l
    obtain ⟨_, hq, -, -⟩ := q.fetch_eq_settled key fits make options l
    -- the views may differ, but both stem from the key, and are unbound before they are bound
    have hleft : p.cache.factory.Stems key (p.cache.acquire key fits make).2 :=
      h.left.acquired hmake
    have hright : p.cache.factory.Stems key (q.cache.acquire key fits make).2 := by
      rw [h.factory_eq] at hmake ⊢
      exact h.right.acquired hmake
    have hsights := huniform.bindOnto hleft hright p.data p.index (options l) l
    rw [hp, hq, shown_map_some, shown_map_some, h.index_eq, ← h.data_eq]
    exact congrArg (fun sight => Answer.view (sight.map some)) hsights

theorem Twins.cachedHeader (h : Twins p q) (huniform : p.cache.factory.Uniform) (id : HeaderId)
    (depth : Nat) :
    shown (p.cachedHeader id depth).2 = shown (q.cachedHeader id depth).2 ∧
      SameReads (p.cachedHeader id depth).1 (q.cachedHeader id depth).1 := by
  rw [cachedHeader_eq_fetch, cachedHeader_eq_fetch, h.index_eq, h.locate?_eq, ← h.factory_eq]
  exact h.fetch huniform (.header id) _ _

theorem Twins.cachedExtension (h : Twins p q) (huniform : p.cache.factory.Uniform)
    (parent ext : HeaderId) (depth : Nat) :
    shown (p.cachedExtension parent ext depth).2 = shown (q.cachedExtension parent ext depth).2 ∧
      SameReads (p.cachedExtension parent ext depth).1 (q.cachedExtension parent ext depth).1 := by
  rw [cachedExtension_eq_fetch, cachedExtension_eq_fetch, h.index_eq, ← h.factory_eq]
  exact h.fetch huniform (.extension parent ext) _ _

/-- The answer when a header is demanded, from the answer when it is asked for. -/
def demanded (id : HeaderId) (depth : Nat) : Answer → Answer
  | .view (.ok none) => .view (.error (.headerNotFound id.name depth))
  | answer => answer

theorem snd_demandHeader (p : Packet V) (id : HeaderId) (depth : Nat) :
    shown ((p.demandHeader id depth).2.map some) =
      demanded id depth (shown (p.cachedHeader id depth).2) := by
  rw [demandHeader_eq_map, Prod.map_snd]
  cases (p.cachedHeader id depth).2 with
  | error e => rfl
  | ok found => cases found <;> rfl

/-! ## Requests -/

theorem Twins.serve (h : Twins p q) (huniform : p.cache.factory.Uniform) (req : Request) :
    (p.serve req).2 = (q.serve req).2 ∧ Twins (p.serve req).1 (q.serve req).1 := by
  have hp := p.touched_serve req
  have hq := q.touched_serve req
  -- what the caches have in common does not depend on the request
  suffices hreads : (p.serve req).2 = (q.serve req).2 ∧
      SameReads (p.serve req).1 (q.serve req).1 by
    refine ⟨hreads.1, hreads.2, ?_, h.left.of_touched hp, h.right.of_touched hq⟩
    rw [hp.sameSetup.factory_eq, hq.sameSetup.factory_eq, h.factory_eq]
  have hchain := h.chain_eq
  cases req with
  | bind data descriptor =>
    obtain ⟨hresult, hreads⟩ := sameReads_bind h.setup_eq
      (congrArg (Descriptor.layout ∘ Chain.head) hchain) data descriptor
    exact ⟨congrArg Answer.done hresult, hreads⟩
  | unbind => exact ⟨rfl, h.setup_eq, rfl, congrArg Chain.release hchain⟩
  | attach d => exact ⟨rfl, h.attach d⟩
  | attachEncoded layout bs => exact h.serve_attachEncoded layout bs
  | header id depth => exact h.cachedHeader huniform id depth
  | demandHeader id depth =>
    obtain ⟨hanswer, hreads⟩ := h.cachedHeader huniform id depth
    show shown ((p.demandHeader id depth).2.map some) =
        shown ((q.demandHeader id depth).2.map some) ∧
      SameReads (p.demandHeader id depth).1 (q.demandHeader id depth).1
    rw [snd_demandHeader, snd_demandHeader, fst_demandHeader, fst_demandHeader, hanswer]
    exact ⟨rfl, hreads⟩
  | extension parent ext depth => exact h.cachedExtension huniform parent ext depth
  | releaseHeader id => exact ⟨rfl, h.setup_eq, h.data_eq, hchain⟩
  | releaseExtension parent ext => exact ⟨rfl, h.setup_eq, h.data_eq, hchain⟩
  | clone => exact ⟨rfl, h.setup_eq, h.data_eq, congrArg Chain.clone hchain⟩

theorem Twins.run (h : Twins p q) (huniform : p.cache.factory.Uniform) (requests : List Request) :
    (p.run requests).2 = (q.run requests).2 ∧ Twins (p.run requests).1 (q.run requests).1 := by
  induction requests generalizing p q with
  | nil => exact ⟨rfl, h⟩
  | cons req rest ih =>
    obtain ⟨hanswer, htwins⟩ := h.serve huniform req
    have hfactory := (p.touched_serve req).sameSetup.factory_eq
    obtain ⟨hanswers, hlast⟩ := ih htwins (hfactory ▸ huniform)
    refine ⟨?_, hlast⟩
    show (p.serve req).2 :: _ = (q.serve req).2 :: _
    rw [hanswer, hanswers]

end Packet

end FrameIndex
