import FrameIndex.Proofs.ViewCache.Requests
import Mathlib.Data.Finset.Card

/-!
# What a cache accounts for

Which keys a cache has views for, and which of these are in use, can be told from the requests
alone: they are entered in a ledger (`CacheLedger`), one after another. The counters of the cache
are another matter. They are changed request by request, along with slots that are found by key, and
may go wrong wherever a slot is replaced or asked for under another name.

They do not: a cache that agrees with a ledger (`ViewCache.Keeps`) still does so after one more
request (`ViewCache.Keeps.serve`). So its figures are those of the ledger
(`ViewCache.Keeps.figures_entries`, `ViewCache.Keeps.figures_inUse`), and as a whole it is a map of
slots by key (`ViewCache.figures_of_ledger`).
-/

namespace FrameIndex

variable {V : Type}

structure CacheLedger where
  /-- The keys under which a view was ever acquired. -/
  acquired : Finset CacheKey := ∅
  /-- The keys under which a view was acquired and not released since. -/
  held : Finset CacheKey := ∅
  /-- How often a view was asked for since the counts were last started. -/
  asked : Nat := 0

namespace CacheLedger

def enter (l : CacheLedger) : CacheRequest V → CacheLedger
  | .acquire name => {
      acquired := insert name.key l.acquired
      held := insert name.key l.held
      asked := l.asked + 1 }
  | .use _ _ => l
  | .release name => { l with held := l.held.erase name.key }
  | .releaseInUse => { l with held := ∅ }
  | .restartCounts => { l with asked := 0 }

def ofRequests (requests : List (CacheRequest V)) : CacheLedger := requests.foldl enter {}

end CacheLedger

def FactoryCall.created? : FactoryCall V → Option V
  | created v => some v
  | released _ => none

namespace ViewCache

def created (c : ViewCache V) : List V := c.calls.filterMap FactoryCall.created?

/-- The cache agrees with the ledger, key by key, and its counters with its slots. -/
structure Keeps (c : ViewCache V) (l : CacheLedger) : Prop where
  nodup : (c.slots.map Prod.fst).Nodup
  entries_eq : c.entries = c.slots.length
  isSome_slot? : ∀ key, (c.slot? key).isSome = true ↔ key ∈ l.acquired
  isInUse : ∀ key, c.isInUse key = true ↔ key ∈ l.held
  asked_eq : c.hits + c.misses = l.asked

variable {c : ViewCache V} {l : CacheLedger} {key : CacheKey} {slot : CacheSlot V}

theorem keeps_new (factory : ViewFactory V) : Keeps { factory } {} where
  nodup := List.nodup_nil
  entries_eq := rfl
  isSome_slot? _ := by simp [slot?]
  isInUse _ := by simp [isInUse, slot?]
  asked_eq := rfl

/-! ## Figures -/

theorem Keeps.mem_iff (h : c.Keeps l) : (key, slot) ∈ c.slots ↔ c.slot? key = some slot :=
  ⟨lookup_eq_some_of_mem h.nodup, mem_of_lookup_eq_some⟩

theorem Keeps.inUse_iff (h : c.Keeps l) (hslot : c.slot? key = some slot) :
    slot.inUse = true ↔ key ∈ l.held := by
  rw [← h.isInUse, ViewCache.isInUse, hslot, Option.any_some]

theorem Keeps.notMem_of_free (h : c.Keeps l) (hslot : c.slot? key = some slot)
    (hfree : slot.inUse = false) : key ∉ l.held := by
  rw [← h.inUse_iff hslot, hfree]
  exact Bool.false_ne_true

theorem Keeps.notMem_held (h : c.Keeps l) (hslot : c.slot? key = none) : key ∉ l.held := by
  rw [← h.isInUse, ViewCache.isInUse, hslot]
  exact Bool.false_ne_true

theorem Keeps.figures_entries (h : c.Keeps l) : c.figures.entries = l.acquired.card := by
  have hkeys : (c.slots.map Prod.fst).toFinset = l.acquired := by
    ext key
    rw [List.mem_toFinset, mem_keys_iff]
    exact h.isSome_slot? key
  calc c.figures.entries
      = (c.slots.map Prod.fst).length := by rw [List.length_map]; exact h.entries_eq
    _ = l.acquired.card := by rw [← hkeys, List.toFinset_card_of_nodup h.nodup]

theorem Keeps.figures_inUse (h : c.Keeps l) : c.figures.inUse = l.held.card := by
  let used := (c.slots.filter (·.2.inUse)).map Prod.fst
  have hnodup : used.Nodup := (List.filter_sublist.map Prod.fst).nodup h.nodup
  have hused : used.toFinset = l.held := by
    ext key
    rw [List.mem_toFinset, ← h.isInUse key, ViewCache.isInUse, Option.any_eq_true]
    constructor
    · intro hmem
      obtain ⟨⟨key, slot⟩, he, rfl⟩ := List.mem_map.1 hmem
      obtain ⟨hslot, huse⟩ := List.mem_filter.1 he
      exact ⟨slot, h.mem_iff.1 hslot, huse⟩
    · rintro ⟨slot, hslot, huse⟩
      exact List.mem_map.2 ⟨(key, slot), List.mem_filter.2 ⟨h.mem_iff.2 hslot, huse⟩, rfl⟩
  calc c.figures.inUse
      = used.length := by rw [List.length_map, figures, List.countP_eq_length_filter]
    _ = l.held.card := by rw [← hused, List.toFinset_card_of_nodup hnodup]

/-! ## Calls to the factory -/

theorem created_append_releases {calls : List (FactoryCall V)}
    (h : ∀ call ∈ calls, call.created? = none) (rest : List (FactoryCall V)) :
    (calls ++ rest).filterMap FactoryCall.created? = rest.filterMap FactoryCall.created? := by
  rw [List.filterMap_append, List.filterMap_eq_nil_iff.2 h, List.nil_append]

/-! ## One request -/

variable [Bindable V]

theorem nodup_serve (h : (c.slots.map Prod.fst).Nodup) (r : CacheRequest V) :
    ((c.serve r).slots.map Prod.fst).Nodup := by
  cases r with
  | acquire name =>
    show ((c.acquireView name).1.slots.map Prod.fst).Nodup
    rw [slots_acquireView]
    exact nodup_keys_put h
  | use name g =>
    show ((updateSlots name.key _ c.slots).map Prod.fst).Nodup
    rw [keys_updateSlots]
    exact h
  | release name =>
    show ((c.release name.key).slots.map Prod.fst).Nodup
    rw [slots_release, keys_updateSlots]
    exact h
  | releaseInUse =>
    show (c.releaseInUse.slots.map Prod.fst).Nodup
    rw [keys_releaseInUse]
    exact h
  | restartCounts => exact h

theorem entries_serve (h : c.entries = c.slots.length) (r : CacheRequest V) :
    (c.serve r).entries = (c.serve r).slots.length := by
  cases r with
  | acquire name =>
    show (c.acquireView name).1.entries = (c.acquireView name).1.slots.length
    rw [slots_acquireView, length_put]
    rcases c.acquireView_cases name with ⟨slot, hslot, -, hacquire⟩ | ⟨-, hacquire⟩
    · have hsome : (c.slots.lookup name.key).isSome = true := Option.isSome_of_eq_some hslot
      rw [hacquire, if_pos hsome]
      exact h
    · rw [hacquire, ← h]
      rfl
  | use name g =>
    show c.entries = (updateSlots name.key _ c.slots).length
    rw [length_updateSlots]
    exact h
  | release name =>
    have hentries : (c.release name.key).entries = c.entries := by
      unfold release
      split <;> rfl
    show (c.release name.key).entries = (c.release name.key).slots.length
    rw [slots_release, length_updateSlots, hentries]
    exact h
  | releaseInUse => exact h.trans (List.length_map _).symm
  | restartCounts => exact h

theorem isSome_slot?_serve (r : CacheRequest V)
    (hkeys : ∀ key, (c.slot? key).isSome = true ↔ key ∈ l.acquired) (key : CacheKey) :
    ((c.serve r).slot? key).isSome = true ↔ key ∈ (l.enter r).acquired := by
  rw [slot?_serve]
  cases r with
  | acquire name =>
    by_cases hkey : key = name.key
    · simp [CacheRequest.onMap, CacheLedger.enter, hkey]
    · simp [CacheRequest.onMap, CacheLedger.enter, hkey, hkeys]
  | use name g | release name =>
    rw [CacheRequest.onMap, update_map_apply, Option.isSome_map]
    exact hkeys key
  | releaseInUse =>
    rw [CacheRequest.onMap, Option.isSome_map]
    exact hkeys key
  | restartCounts => exact hkeys key

theorem isInUse_serve (r : CacheRequest V)
    (hheld : ∀ key, c.isInUse key = true ↔ key ∈ l.held) (key : CacheKey) :
    (c.serve r).isInUse key = true ↔ key ∈ (l.enter r).held := by
  have hkey := hheld key
  unfold isInUse at hkey ⊢
  rw [slot?_serve]
  cases r with
  | acquire name =>
    by_cases hname : key = name.key
    · simp [CacheRequest.onMap, CacheLedger.enter, hname]
    · simpa [CacheRequest.onMap, CacheLedger.enter, hname] using hkey
  | use name g =>
    -- whatever is done with a view, its slot stays as it was otherwise
    have hstays : ∀ slot : CacheSlot V,
        (if key = name.key then { slot with view := g slot.view } else slot).inUse = slot.inUse := by
      intro slot
      split <;> rfl
    rw [CacheRequest.onMap, update_map_apply, Option.any_map]
    simp only [hstays]
    exact hkey
  | release name =>
    rw [CacheRequest.onMap, update_map_apply, Option.any_map]
    by_cases hname : key = name.key
    · simp [CacheLedger.enter, hname, releasedSlot]
    · simpa [CacheLedger.enter, hname] using hkey
  | releaseInUse =>
    have hfree : ∀ slot : CacheSlot V,
        (if slot.inUse then releasedSlot c.factory slot else slot).inUse = false := by
      intro slot
      split
      · rfl
      · rename_i hunused
        exact Bool.eq_false_iff.2 hunused
    rw [CacheRequest.onMap, Option.any_map]
    simp [hfree, CacheLedger.enter]
  | restartCounts => exact hkey

theorem asked_serve (h : c.hits + c.misses = l.asked) (r : CacheRequest V) :
    (c.serve r).hits + (c.serve r).misses = (l.enter r).asked := by
  cases r with
  | acquire name =>
    show (c.acquireView name).1.hits + (c.acquireView name).1.misses = l.asked + 1
    rcases c.acquireView_cases name with ⟨slot, -, -, hacquire⟩ | ⟨-, hacquire⟩
    · rw [hacquire, ← h]
      exact Nat.add_right_comm _ _ _
    · rw [hacquire, ← h]
      rfl
  | release name =>
    show (c.release name.key).hits + (c.release name.key).misses = l.asked
    unfold release
    split <;> exact h
  | use name g | releaseInUse => exact h
  | restartCounts => rfl

theorem Keeps.serve (h : c.Keeps l) (r : CacheRequest V) : (c.serve r).Keeps (l.enter r) where
  nodup := nodup_serve h.nodup r
  entries_eq := entries_serve h.entries_eq r
  isSome_slot? := isSome_slot?_serve r h.isSome_slot?
  isInUse := isInUse_serve r h.isInUse
  asked_eq := asked_serve h.asked_eq r

theorem Keeps.run (h : c.Keeps l) (requests : List (CacheRequest V)) :
    (c.run requests).Keeps (requests.foldl CacheLedger.enter l) := by
  induction requests generalizing c l with
  | nil => exact h
  | cons r rest ih => exact ih (h.serve r)

theorem keeps_run (factory : ViewFactory V) (requests : List (CacheRequest V)) :
    (run { factory } requests).Keeps (.ofRequests requests) :=
  (keeps_new factory).run requests

/-! ## Creations -/

/-- How a request is counted, and what it leaves alone. -/
structure Counted (c : ViewCache V) (r : CacheRequest V) : Prop where
  entries_le : c.figures.entries ≤ (c.serve r).figures.entries
  /-- An acquisition is a hit, and then nothing is created, or it is a miss, and then one view is. -/
  acquired : ∀ name, r = .acquire name →
    ((c.serve r).hits = c.hits + 1 ∧ (c.serve r).misses = c.misses ∧
      (c.serve r).created = c.created) ∨
    ((c.serve r).hits = c.hits ∧ (c.serve r).misses = c.misses + 1 ∧
      (c.serve r).created = c.factory.makeFor name :: c.created)
  /-- Whatever is acquired is in use under its key. -/
  slot?_acquired : ∀ name, r = .acquire name →
    (c.serve r).slot? name.key = some ⟨(c.acquireView name).2, true⟩
  created_eq : (∀ name, r ≠ .acquire name) → (c.serve r).created = c.created
  /-- A request about one key changes no other slot. -/
  others : ∀ key k, r.key? = some key → k ≠ key → (c.serve r).slot? k = c.slot? k

theorem created?_of_mem_releaseCall {f : ViewFactory V} {slot : CacheSlot V}
    {call : FactoryCall V} (h : call ∈ releaseCall f slot) : call.created? = none := by
  unfold releaseCall at h
  split at h
  · rw [List.mem_singleton.1 h]
    rfl
  · cases h

theorem created_serve_of_ne {r : CacheRequest V} (h : ∀ name, r ≠ .acquire name) :
    (c.serve r).created = c.created := by
  cases r with
  | acquire name => exact absurd rfl (h name)
  | release name =>
    show (c.release name.key).created = c.created
    unfold release
    split
    · rfl
    · exact created_append_releases (fun _ => created?_of_mem_releaseCall) c.calls
  | releaseInUse =>
    refine created_append_releases ?_ c.calls
    intro call hcall
    obtain ⟨e, -, he⟩ := List.mem_flatMap.1 (List.mem_reverse.1 hcall)
    exact created?_of_mem_releaseCall he
  | use name g | restartCounts => rfl

theorem Keeps.counted (h : c.Keeps l) (r : CacheRequest V) : c.Counted r where
  entries_le := by
    rw [h.figures_entries, (h.serve r).figures_entries]
    refine Finset.card_le_card ?_
    cases r with
    | acquire name => exact Finset.subset_insert _ _
    | use name g | release name | releaseInUse | restartCounts => exact subset_rfl
  acquired := by
    rintro name rfl
    rcases c.acquireView_cases name with ⟨slot, -, -, hacquire⟩ | ⟨-, hacquire⟩
    · exact .inl (by rw [ViewCache.serve, hacquire]; exact ⟨rfl, rfl, rfl⟩)
    · exact .inr (by rw [ViewCache.serve, hacquire]; exact ⟨rfl, rfl, rfl⟩)
  slot?_acquired := by
    rintro name rfl
    show List.lookup name.key (c.acquireView name).1.slots = _
    rw [slots_acquireView, lookup_put, if_pos rfl]
  created_eq := created_serve_of_ne
  others _ _ := c.slot?_serve_of_ne

/-- **A cache is a map of slots by key, and its figures are right.** This is so after any requests,
with any factory. Keys are packs and protocols: those of the header, or those of the header that is
extended and of its extension. -/
theorem figures_of_ledger (factory : ViewFactory V) (requests : List (CacheRequest V)) :
    let c := run { factory } requests
    let l := CacheLedger.ofRequests requests
    (∀ a b : ViewName, a.key = b.key ↔ a.SameHeaders b) ∧
    c.slot? = requests.foldl (CacheRequest.onMap factory) (fun _ => none) ∧
    (∀ key, ((c.slot? key).isSome = true ↔ key ∈ l.acquired) ∧
      (c.isInUse key = true ↔ key ∈ l.held)) ∧
    c.figures.entries = l.acquired.card ∧ c.figures.inUse = l.held.card ∧
    c.figures.hits + c.figures.misses = l.asked ∧ ∀ r, c.Counted r := by
  intro c l
  have hkeeps : c.Keeps l := keeps_run factory requests
  refine ⟨fun _ _ => ViewName.key_eq_iff, slot?_run _ requests, ?_, hkeeps.figures_entries,
    hkeeps.figures_inUse, hkeeps.asked_eq, hkeeps.counted⟩
  intro key
  exact ⟨hkeeps.isSome_slot? key, hkeeps.isInUse key⟩

end ViewCache

end FrameIndex
