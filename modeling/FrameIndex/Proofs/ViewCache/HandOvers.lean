import FrameIndex.Proofs.ViewCache.Ledger
import FrameIndex.View.Guarded

/-!
# Which views a cache hands over

A factory that takes views back may expect one view for each acquisition that ends: when a slot that
was in use is free again, or when a view in use makes room for a new one
(`ViewCache.ended`, `ViewCache.Balanced`). The views that it gets are let go of before.

A cache lives up to this but for two kinds of request. Releasing a view that is free already hands
it over once more (`ViewCache.repeats`), although releasing all views passes over those that are
free. And a view in use that does not fit the name it is asked for by is replaced, and never handed
over (`ViewCache.loses`). All other requests are balanced (`ViewCache.balanced_iff`), and over a run
of any requests the acquisitions that began are those that were handed over, those that go on and
those that were lost, except for the repetitions (`ViewCache.length_handedOver_run`).
-/

namespace FrameIndex

variable {V : Type}

def FactoryCall.released? : FactoryCall V → Option V
  | created _ => none
  | released v => some v

namespace ViewCache

def handedOver (c : ViewCache V) : List V := c.calls.filterMap FactoryCall.released?

variable [Bindable V]

/-- The request puts a new view in place of the one under the key. -/
def replaces (c : ViewCache V) (key : CacheKey) : CacheRequest V → Bool
  | .acquire name => name.key = key && (c.slot? key).any fun slot => !name.fits slot.view
  | _ => false

/-- The slots whose acquisition a request ends: they were in use, and are free afterwards or have a
new view. -/
def ended (c : ViewCache V) (r : CacheRequest V) : List (CacheSlot V) :=
  (c.slots.filter fun e =>
    e.2.inUse && (!(c.serve r).isInUse e.1 || c.replaces e.1 r)).map Prod.snd

/-- The request hands over the views whose acquisition it ends, let go of and in any order, and no
others. -/
def Balanced (c : ViewCache V) (r : CacheRequest V) : Prop :=
  (c.serve r).handedOver.Perm
    (((c.ended r).map fun slot => Bindable.unbind slot.view) ++ c.handedOver)

/-- The request releases a view that is free already. -/
def repeats (c : ViewCache V) : CacheRequest V → Bool
  | .release name => (c.slot? name.key).any fun slot => !slot.inUse
  | _ => false

/-- The request replaces a view in use. -/
def loses (c : ViewCache V) : CacheRequest V → Bool
  | .acquire name => (c.slot? name.key).any fun slot => slot.inUse && !name.fits slot.view
  | _ => false

/-- The request begins an acquisition: of a view that is new, or was free. -/
def begins (c : ViewCache V) : CacheRequest V → Bool
  | .acquire name => !(c.slot? name.key).any fun slot => slot.inUse && name.fits slot.view
  | _ => false

def tally (kind : ViewCache V → CacheRequest V → Bool) (c : ViewCache V) :
    List (CacheRequest V) → Nat
  | [] => 0
  | r :: rest => (kind c r).toNat + tally kind (c.serve r) rest

variable {c : ViewCache V} {l : CacheLedger} {r : CacheRequest V} {name : ViewName}
  {key : CacheKey} {slot : CacheSlot V}

/-! ## What is handed over -/

theorem released?_releaseCall (htakes : c.factory.takesBack = true) (slot : CacheSlot V) :
    (releaseCall c.factory slot).filterMap FactoryCall.released? = [Bindable.unbind slot.view] := by
  rw [releaseCall, if_pos htakes]
  rfl

theorem handedOver_acquire : (c.serve (.acquire name)).handedOver = c.handedOver := by
  rw [serve]
  rcases c.acquireView_cases name with ⟨slot, -, -, hacquire⟩ | ⟨-, hacquire⟩
  · rw [hacquire]
    rfl
  · rw [hacquire]
    rfl

theorem handedOver_release (htakes : c.factory.takesBack = true) :
    (c.serve (.release name)).handedOver =
      ((c.slot? name.key).map fun slot => Bindable.unbind slot.view).toList ++ c.handedOver := by
  rw [serve, release]
  cases hslot : c.slot? name.key with
  | none => rfl
  | some slot =>
    show (releaseCall c.factory slot ++ c.calls).filterMap _ = _
    rw [List.filterMap_append, released?_releaseCall htakes]
    rfl

theorem handedOver_releaseInUse (htakes : c.factory.takesBack = true) :
    (c.serve .releaseInUse).handedOver =
      ((c.slots.filter (·.2.inUse)).map fun e => Bindable.unbind e.2.view).reverse ++
        c.handedOver := by
  have hcalls : ∀ slots : List (CacheKey × CacheSlot V),
      (slots.flatMap fun e => releaseCall c.factory e.2).filterMap FactoryCall.released? =
        slots.map fun e => Bindable.unbind e.2.view := by
    intro slots
    induction slots with
    | nil => rfl
    | cons e rest ih =>
      rw [List.flatMap_cons, List.filterMap_append, released?_releaseCall htakes, ih]
      rfl
  show (_ ++ c.calls).filterMap _ = _
  rw [List.filterMap_append, List.filterMap_reverse, hcalls]
  rfl

/-! ## What ends -/

theorem ended_eq (h : c.Keeps l) {p : CacheKey → CacheSlot V → Bool}
    (hp : ∀ key slot, c.slot? key = some slot → key ∈ l.held →
      (!(c.serve r).isInUse key || c.replaces key r) = p key slot) :
    c.ended r = (c.slots.filter fun e => e.2.inUse && p e.1 e.2).map Prod.snd := by
  refine congrArg (List.map Prod.snd) (List.filter_congr fun e he => ?_)
  cases huse : e.2.inUse with
  | false => rfl
  | true =>
    have hslot := h.mem_iff.1 he
    rw [Bool.true_and, Bool.true_and]
    exact hp e.1 e.2 hslot ((h.inUse_iff hslot).1 huse)

theorem ended_acquire (h : c.Keeps l) : c.ended (.acquire name) =
    ((c.slot? name.key).filter fun slot => slot.inUse && !name.fits slot.view).toList := by
  rw [slot?, ← filter_at_key h.nodup, ended_eq h (p := fun key slot =>
    !name.fits slot.view && decide (key = name.key))]
  · simp only [Bool.and_assoc]
  · intro key slot hslot hheld
    have hstays : (c.serve (.acquire name)).isInUse key = true :=
      ((h.serve _).isInUse key).2 (Finset.mem_insert_of_mem hheld)
    rw [hstays, replaces, hslot]
    simp [Bool.and_comm, eq_comm]

theorem ended_release (h : c.Keeps l) :
    c.ended (.release name) = ((c.slot? name.key).filter (·.inUse)).toList := by
  rw [slot?, ← filter_at_key h.nodup, ended_eq h (p := fun key _ => decide (key = name.key))]
  intro key slot hslot hheld
  have hafter := (h.serve (.release name)).isInUse key
  by_cases hkey : key = name.key
  · have hfree : (c.serve (.release name)).isInUse key = false := by
      rw [← Bool.not_eq_true, hafter, hkey]
      exact Finset.notMem_erase _ _
    rw [hfree, decide_eq_true hkey]
    rfl
  · rw [hafter.2 (Finset.mem_erase.2 ⟨hkey, hheld⟩), decide_eq_false hkey]
    rfl

theorem ended_releaseInUse (h : c.Keeps l) :
    c.ended .releaseInUse = (c.slots.filter (·.2.inUse)).map Prod.snd := by
  rw [ended_eq h (p := fun _ _ => true)]
  · simp only [Bool.and_true]
  · intro key slot _ _
    have hfree : (c.serve .releaseInUse).isInUse key = false := by
      rw [← Bool.not_eq_true, (h.serve _).isInUse key]
      exact Finset.notMem_empty _
    rw [hfree]
    rfl

theorem ended_of_enter_eq (h : c.Keeps l) (henter : (l.enter r).held = l.held)
    (hreplaces : ∀ key, c.replaces key r = false) : c.ended r = [] := by
  rw [ended_eq h (p := fun _ _ => false)]
  · simp only [Bool.and_false, List.filter_false, List.map_nil]
  · intro key slot _ hheld
    rw [((h.serve r).isInUse key).2 (henter ▸ hheld), hreplaces]
    rfl

/-! ## Balance -/

theorem balanced_iff_of_handedOver_eq (h : (c.serve r).handedOver = c.handedOver) :
    c.Balanced r ↔ c.ended r = [] := by
  rw [Balanced, h]
  constructor
  · intro hperm
    have hlength := hperm.length_eq
    rw [List.length_append, List.length_map] at hlength
    exact List.eq_nil_of_length_eq_zero (by omega)
  · intro hnil
    rw [hnil]
    exact .refl _

theorem balanced_iff (h : c.Keeps l) (htakes : c.factory.takesBack = true) :
    c.Balanced r ↔ c.repeats r = false ∧ c.loses r = false := by
  cases r with
  | acquire name =>
    rw [balanced_iff_of_handedOver_eq handedOver_acquire, ended_acquire h, loses]
    cases c.slot? name.key with
    | none => simp [repeats]
    | some slot => simp [repeats, Option.filter]
  | release name =>
    rw [Balanced, handedOver_release htakes, ended_release h, repeats]
    cases c.slot? name.key with
    | none => simp [loses]
    | some slot =>
      cases huse : slot.inUse with
      | true => simp [loses, Option.filter, huse]
      | false =>
        -- one view more than before, and no acquisition that ends
        have hlength : ¬ (Bindable.unbind slot.view :: c.handedOver).Perm c.handedOver := by
          intro hperm
          exact Nat.succ_ne_self _ hperm.length_eq
        simpa [loses, Option.filter, huse] using hlength
  | releaseInUse =>
    rw [Balanced, handedOver_releaseInUse htakes, ended_releaseInUse h, List.map_map]
    have hperm := List.reverse_perm
      ((c.slots.filter (·.2.inUse)).map fun e => Bindable.unbind e.2.view)
    exact iff_of_true (hperm.append_right _) ⟨rfl, rfl⟩
  | use name g =>
    rw [balanced_iff_of_handedOver_eq rfl, ended_of_enter_eq h rfl fun _ => rfl]
    simp [repeats, loses]
  | restartCounts =>
    rw [balanced_iff_of_handedOver_eq rfl, ended_of_enter_eq h rfl fun _ => rfl]
    simp [repeats, loses]

/-- A request that is not balanced hands over a view too many, or one too few. -/
theorem repeats_hand_over (h : c.Keeps l) (htakes : c.factory.takesBack = true)
    (hrepeats : c.repeats r = true) : c.ended r = [] ∧
      ∃ slot : CacheSlot V, (c.serve r).handedOver = Bindable.unbind slot.view :: c.handedOver := by
  cases r with
  | release name =>
    rw [ended_release h, handedOver_release htakes]
    obtain ⟨slot, hslot, hfree⟩ := (Option.any_eq_true _ _).1 hrepeats
    rw [Bool.not_eq_true'] at hfree
    exact ⟨by simp [hslot, hfree], slot, by rw [hslot]; rfl⟩
  | acquire name | use name g | releaseInUse | restartCounts => cases hrepeats

theorem loses_hand_over (h : c.Keeps l) (hloses : c.loses r = true) :
    (∃ slot : CacheSlot V, c.ended r = [slot]) ∧ (c.serve r).handedOver = c.handedOver := by
  cases r with
  | acquire name =>
    obtain ⟨slot, hslot, hunfit⟩ := (Option.any_eq_true _ _).1 hloses
    refine ⟨⟨slot, ?_⟩, handedOver_acquire⟩
    rw [ended_acquire h, hslot, Option.filter_some, if_pos hunfit]
    rfl
  | release name | use name g | releaseInUse | restartCounts => cases hloses

theorem isBound_handedOver_serve (htakes : c.factory.takesBack = true)
    (hunbinds : ∀ v : V, Bindable.isBound (Bindable.unbind v) = false)
    (h : ∀ v ∈ c.handedOver, Bindable.isBound v = false) (r : CacheRequest V) :
    ∀ v ∈ (c.serve r).handedOver, Bindable.isBound v = false := by
  cases r with
  | acquire name =>
    rw [handedOver_acquire]
    exact h
  | release name =>
    rw [handedOver_release htakes]
    refine List.forall_mem_append.2 ⟨?_, h⟩
    cases c.slot? name.key with
    | none => exact List.forall_mem_nil _
    | some slot => exact List.forall_mem_singleton.2 (hunbinds slot.view)
  | releaseInUse =>
    rw [handedOver_releaseInUse htakes]
    refine List.forall_mem_append.2 ⟨?_, h⟩
    intro v hv
    obtain ⟨e, -, rfl⟩ := List.mem_map.1 (List.mem_reverse.1 hv)
    exact hunbinds e.2.view
  | use name g | restartCounts => exact h

/-! ## Runs -/

theorem inUse_acquire (h : c.Keeps l) :
    (c.serve (.acquire name)).figures.inUse + (c.loses (.acquire name)).toNat =
      c.figures.inUse + (c.begins (.acquire name)).toNat := by
  rw [(h.serve _).figures_inUse, h.figures_inUse, CacheLedger.enter, loses, begins]
  cases hslot : c.slot? name.key with
  | none =>
    rw [Finset.card_insert_of_notMem (h.notMem_held hslot)]
    rfl
  | some slot =>
    rw [Option.any_some, Option.any_some]
    cases huse : slot.inUse with
    | true =>
      rw [Finset.insert_eq_of_mem ((h.inUse_iff hslot).1 huse), Bool.true_and, Bool.true_and]
    | false =>
      rw [Finset.card_insert_of_notMem (h.notMem_of_free hslot huse)]
      rfl

theorem length_handedOver_release (h : c.Keeps l) (htakes : c.factory.takesBack = true) :
    (c.serve (.release name)).handedOver.length + (c.serve (.release name)).figures.inUse =
      c.handedOver.length + c.figures.inUse + (c.repeats (.release name)).toNat := by
  rw [(h.serve _).figures_inUse, h.figures_inUse, CacheLedger.enter, repeats,
    handedOver_release htakes]
  cases hslot : c.slot? name.key with
  | none =>
    rw [Finset.erase_eq_of_notMem (h.notMem_held hslot)]
    rfl
  | some slot =>
    show c.handedOver.length + 1 + (l.held.erase name.key).card =
      c.handedOver.length + l.held.card + (!slot.inUse).toNat
    cases huse : slot.inUse with
    | true =>
      rw [← Finset.card_erase_add_one ((h.inUse_iff hslot).1 huse), Bool.not_true, Bool.toNat_false]
      omega
    | false =>
      rw [Finset.erase_eq_of_notMem (h.notMem_of_free hslot huse), Bool.not_false, Bool.toNat_true]
      omega

theorem length_handedOver_serve (h : c.Keeps l) (htakes : c.factory.takesBack = true)
    (r : CacheRequest V) :
    (c.serve r).handedOver.length + (c.serve r).figures.inUse + (c.loses r).toNat =
      c.handedOver.length + c.figures.inUse + (c.begins r).toNat + (c.repeats r).toNat := by
  cases r with
  | acquire name =>
    rw [handedOver_acquire, Nat.add_assoc, inUse_acquire h, ← Nat.add_assoc]
    rfl
  | release name => exact length_handedOver_release h htakes
  | releaseInUse =>
    rw [(h.serve _).figures_inUse, handedOver_releaseInUse htakes]
    simp [figures, List.countP_eq_length_filter, CacheLedger.enter, loses, begins, repeats,
      Nat.add_comm]
  | use name g | restartCounts =>
    rw [(h.serve _).figures_inUse, h.figures_inUse]
    rfl

/-- The acquisitions that began are those that were handed over, those that go on and those that
were lost, apart from repetitions. -/
theorem length_handedOver_run (h : c.Keeps l) (htakes : c.factory.takesBack = true)
    (requests : List (CacheRequest V)) :
    (c.run requests).handedOver.length + (c.run requests).figures.inUse +
        tally loses c requests =
      c.handedOver.length + c.figures.inUse + tally begins c requests +
        tally repeats c requests := by
  induction requests generalizing c l with
  | nil => rfl
  | cons r rest ih =>
    have hstep := length_handedOver_serve h htakes r
    have hrest := ih (h.serve r) (by rw [factory_serve, htakes])
    simp only [run, List.foldl_cons, tally] at hrest ⊢
    omega

theorem tally_eq_zero_iff {kind : ViewCache V → CacheRequest V → Bool}
    {requests : List (CacheRequest V)} : tally kind c requests = 0 ↔
      ∀ before r after, requests = before ++ r :: after → kind (c.run before) r = false := by
  induction requests generalizing c with
  | nil => simp [tally]
  | cons first rest ih =>
    rw [tally, Nat.add_eq_zero_iff, Bool.toNat_eq_zero, ih]
    constructor
    · rintro ⟨hfirst, hrest⟩ before r after heq
      cases before with
      | nil =>
        obtain ⟨rfl, rfl⟩ := List.cons.inj heq
        exact hfirst
      | cons b before =>
        obtain ⟨rfl, htail⟩ := List.cons.inj heq
        exact hrest before r after htail
    · intro h
      exact ⟨h [] first rest rfl, fun before r after heq =>
        h (first :: before) r after (congrArg (first :: ·) heq)⟩

theorem isBound_handedOver_run (htakes : c.factory.takesBack = true)
    (hunbinds : ∀ v : V, Bindable.isBound (Bindable.unbind v) = false)
    (h : ∀ v ∈ c.handedOver, Bindable.isBound v = false) (requests : List (CacheRequest V)) :
    ∀ v ∈ (c.run requests).handedOver, Bindable.isBound v = false := by
  have hserve : ∀ (d : ViewCache V) (r : CacheRequest V),
      (d.factory.takesBack = true ∧ ∀ v ∈ d.handedOver, Bindable.isBound v = false) →
      (d.serve r).factory.takesBack = true ∧
        ∀ v ∈ (d.serve r).handedOver, Bindable.isBound v = false := by
    rintro d r ⟨hd, hbound⟩
    exact ⟨by rw [factory_serve, hd], isBound_handedOver_serve hd hunbinds hbound r⟩
  exact (run_of_serve hserve ⟨htakes, h⟩ requests).2

/-- **Every acquisition that ends hands its view over once**, unless a view is released that is free
already, or one in use is replaced: the first hands over a view too many, the second one too few.
This is so after any requests, with any factory that takes views back. -/
theorem hand_overs_of_run (factory : ViewFactory V) (htakes : factory.takesBack = true)
    (hunbinds : ∀ v : V, Bindable.isBound (Bindable.unbind v) = false)
    (requests : List (CacheRequest V)) :
    let new : ViewCache V := { factory }
    let c := new.run requests
    (∀ v ∈ c.handedOver, Bindable.isBound v = false) ∧
    ((∀ before r after, requests = before ++ r :: after → (new.run before).Balanced r) ↔
      tally repeats new requests = 0 ∧ tally loses new requests = 0) ∧
    (∀ r, c.repeats r = true → c.ended r = [] ∧
      ∃ slot : CacheSlot V, (c.serve r).handedOver = Bindable.unbind slot.view :: c.handedOver) ∧
    (∀ r, c.loses r = true → (∃ slot, c.ended r = [slot]) ∧
      (c.serve r).handedOver = c.handedOver) ∧
    c.handedOver.length + c.figures.inUse + tally loses new requests =
      tally begins new requests + tally repeats new requests := by
  intro new c
  have hkeeps : c.Keeps (.ofRequests requests) := keeps_run factory requests
  have hc : c.factory.takesBack = true := by rw [factory_run, htakes]
  refine ⟨isBound_handedOver_run htakes hunbinds (List.forall_mem_nil _) requests, ?_,
    fun r => repeats_hand_over hkeeps hc, fun r => loses_hand_over hkeeps, ?_⟩
  · rw [tally_eq_zero_iff, tally_eq_zero_iff]
    have hbalanced : ∀ before r, (new.run before).Balanced r ↔
        (new.run before).repeats r = false ∧ (new.run before).loses r = false := by
      intro before r
      exact balanced_iff (keeps_run factory before) (by rw [factory_run, htakes])
    constructor
    · intro h
      exact ⟨fun before r after heq => ((hbalanced before r).1 (h before r after heq)).1,
        fun before r after heq => ((hbalanced before r).1 (h before r after heq)).2⟩
    · rintro ⟨hrepeats, hloses⟩ before r after heq
      exact (hbalanced before r).2 ⟨hrepeats before r after heq, hloses before r after heq⟩
  · simpa [figures, handedOver] using length_handedOver_run (keeps_new factory) htakes requests

/-- A pool of views that makes payload views for all extensions. -/
def payloadPool : GuardRules := { extensionAs := some .payload, takesBack := true }

theorem hand_overs_of_third_request :
    let new : ViewCache GuardedView := { factory := payloadPool.factory }
    let tcp := ViewName.header .tcp
    let requests : List (CacheRequest GuardedView) := [.acquire tcp, .release tcp, .release tcp]
    payloadPool.factory.takesBack = true ∧
      (new.run requests).handedOver.length = 2 ∧ tally begins new requests = 1 ∧
      ((∀ before r after, requests = before ++ r :: after → (new.run before).Balanced r) ↔
        tally repeats new requests = 0 ∧ tally loses new requests = 0) := by
  intro new tcp requests
  refine ⟨rfl, by decide, by decide, ?_⟩
  exact (hand_overs_of_run payloadPool.factory rfl (fun v => by cases v <;> rfl) requests).2.1

/-- A view that is released twice is handed over twice, and an extension view that is replaced while
it is in use is not handed over at all. -/
theorem unbalanced_requests :
    let new : ViewCache GuardedView := { factory := payloadPool.factory }
    let tcp := ViewName.header .tcp
    let mss := ViewName.extension .tcp (.tcpOption 2)
    let freed := new.run [.acquire tcp, .release tcp]
    let used := new.run [.acquire mss]
    (freed.isInUse tcp.key = false ∧ freed.handedOver.length = 1 ∧
      (freed.serve (.release tcp)).handedOver.length = 2 ∧ ¬ freed.Balanced (.release tcp)) ∧
    used.isInUse mss.key = true ∧ (used.serve (.acquire mss)).created.length = 2 ∧
      (used.serve (.acquire mss)).handedOver = [] ∧ ¬ used.Balanced (.acquire mss) := by
  unfold Balanced
  decide

end ViewCache

end FrameIndex
