import FrameIndex.ViewCache

/-!
# What a cache does to its slots

A view that is acquired and then bound ends up in a slot that is put under its key
(`ViewCache.slots_updateView_acquire`); a view that is released has its slot replaced by the
released one (`ViewCache.slots_release`). So whatever holds of every slot holds on, as soon as it
holds of the slots that are put and released (`every_put`, `every_updateSlots`,
`every_releaseInUse`). Keys are never dropped. Looked up by their keys, the slots are a map
(`lookup_updateSlots`, `lookup_put`), and a list whose keys are all different has a slot for each
of them (`mem_keys_iff`, `lookup_eq_some_of_mem`).
-/

namespace FrameIndex

namespace ViewCache

variable {V : Type} {key k : CacheKey} {f g : CacheSlot V → CacheSlot V} {slot : CacheSlot V}
  {slots : List (CacheKey × CacheSlot V)} {P Q : CacheKey → CacheSlot V → Prop}

/-- What holds of every slot, given the key it is under. -/
def Every (P : CacheKey → CacheSlot V → Prop) (slots : List (CacheKey × CacheSlot V)) : Prop :=
  ∀ e ∈ slots, P e.1 e.2

/-- The slots with one under a key, in place of the one that may be there. -/
def put (key : CacheKey) (slot : CacheSlot V) (slots : List (CacheKey × CacheSlot V)) :
    List (CacheKey × CacheSlot V) :=
  if (slots.lookup key).isSome then updateSlots key (fun _ => slot) slots
  else slots ++ [(key, slot)]

theorem every_nil : Every P [] := List.forall_mem_nil _

/-! ## One slot changed -/

theorem of_lookup_cons_eq_none {e : CacheKey × CacheSlot V} (h : (e :: slots).lookup key = none) :
    e.1 ≠ key ∧ slots.lookup key = none := by
  have hall := List.lookup_eq_none_iff.1 h
  simp only [List.mem_cons, forall_eq_or_imp, bne_iff_ne] at hall
  exact ⟨hall.1.symm, List.lookup_eq_none_iff.2 fun e he => bne_iff_ne.2 (hall.2 e he)⟩

theorem updateSlots_of_lookup_eq_none (h : slots.lookup key = none) :
    updateSlots key f slots = slots := by
  induction slots with
  | nil => rfl
  | cons e rest ih =>
    obtain ⟨hne, hrest⟩ := of_lookup_cons_eq_none h
    rw [updateSlots, if_neg hne, ih hrest]

theorem updateSlots_append_self (h : slots.lookup key = none) :
    updateSlots key f (slots ++ [(key, slot)]) = slots ++ [(key, f slot)] := by
  induction slots with
  | nil => simp [updateSlots]
  | cons e rest ih =>
    obtain ⟨hne, hrest⟩ := of_lookup_cons_eq_none h
    rw [List.cons_append, updateSlots, if_neg hne, ih hrest, List.cons_append]

theorem updateSlots_updateSlots :
    updateSlots key f (updateSlots key g slots) = updateSlots key (f ∘ g) slots := by
  induction slots with
  | nil => rfl
  | cons e rest ih =>
    obtain ⟨k, s⟩ := e
    by_cases hk : k = key
    · simp [updateSlots, hk]
    · simp [updateSlots, hk, ih]

theorem every_updateSlots (h : Every P slots) (hkeep : ∀ key slot, P key slot → Q key slot)
    (hf : ∀ slot, P key slot → Q key (f slot)) : Every Q (updateSlots key f slots) := by
  induction slots with
  | nil => exact every_nil
  | cons e rest ih =>
    obtain ⟨k, s⟩ := e
    obtain ⟨hs, hrest⟩ := List.forall_mem_cons.1 h
    rw [updateSlots]
    split
    · rename_i hk
      have hstay : Every Q rest := fun e he => hkeep _ _ (hrest e he)
      exact List.forall_mem_cons.2 ⟨hk ▸ hf s (hk ▸ hs), hstay⟩
    · exact List.forall_mem_cons.2 ⟨hkeep _ _ hs, ih hrest⟩

theorem every_put (h : Every P slots) (hslot : P key slot) : Every P (put key slot slots) := by
  unfold put
  split
  · exact every_updateSlots h (fun _ _ hkeep => hkeep) fun _ _ => hslot
  · intro e he
    rcases List.mem_append.1 he with he | he
    · exact h e he
    · rw [List.mem_singleton.1 he]
      exact hslot

theorem updateSlots_put : updateSlots key f (put key slot slots) = put key (f slot) slots := by
  unfold put
  split
  · rw [updateSlots_updateSlots]
    rfl
  · rename_i h
    exact updateSlots_append_self (Option.not_isSome_iff_eq_none.1 h)

/-! ## Slots as a map -/

theorem lookup_cons (e : CacheKey × CacheSlot V) (slots : List (CacheKey × CacheSlot V))
    (k : CacheKey) : (e :: slots).lookup k = if e.1 = k then some e.2 else slots.lookup k := by
  rw [List.lookup_cons]
  by_cases h : e.1 = k
  · simp [h]
  · simp [h, beq_eq_false_iff_ne.2 (Ne.symm h)]

theorem lookup_updateSlots : (updateSlots key f slots).lookup k =
    if k = key then (slots.lookup k).map f else slots.lookup k := by
  induction slots with
  | nil => simp [updateSlots]
  | cons e rest ih =>
    obtain ⟨k', s⟩ := e
    by_cases hkey : k' = key
    · rw [updateSlots, if_pos hkey, lookup_cons, lookup_cons]
      by_cases hk : k' = k
      · simp [hk, ← hkey]
      · simp [hk, show k ≠ key from fun h => hk (hkey.trans h.symm)]
    · rw [updateSlots, if_neg hkey, lookup_cons, lookup_cons, ih]
      by_cases hk : k' = k
      · simp [hk, show k ≠ key from fun h => hkey (hk.trans h)]
      · simp [hk]

theorem lookup_append_self (h : slots.lookup key = none) :
    (slots ++ [(key, slot)]).lookup k = if k = key then some slot else slots.lookup k := by
  rw [List.lookup_append, lookup_cons, List.lookup_nil]
  by_cases hk : k = key
  · simp [hk, h]
  · simp [hk, Ne.symm hk]

theorem lookup_put : (put key slot slots).lookup k =
    if k = key then some slot else slots.lookup k := by
  unfold put
  split
  · rename_i hsome
    rw [lookup_updateSlots]
    by_cases hk : k = key
    · obtain ⟨old, hold⟩ := Option.isSome_iff_exists.1 hsome
      simp [hk, hold]
    · simp [hk]
  · rename_i hnone
    exact lookup_append_self (Option.not_isSome_iff_eq_none.1 hnone)

theorem lookup_map_snd (g : CacheSlot V → CacheSlot V) :
    (slots.map fun e => (e.1, g e.2)).lookup k = (slots.lookup k).map g := by
  induction slots with
  | nil => rfl
  | cons e rest ih =>
    rw [List.map_cons, lookup_cons, lookup_cons, ih]
    split <;> rfl

/-- What a slot becomes depends on that slot only, even if the list is changed wherever the key
occurs. -/
theorem updateSlots_of_lookup_eq_some (h : slots.lookup key = some slot) :
    updateSlots key f slots = put key (f slot) slots := by
  rw [put, if_pos (Option.isSome_of_eq_some h)]
  induction slots with
  | nil => cases h
  | cons e rest ih =>
    obtain ⟨k', s⟩ := e
    rw [lookup_cons] at h
    by_cases hkey : k' = key
    · rw [if_pos hkey] at h
      obtain rfl := Option.some.inj h
      rw [updateSlots, updateSlots, if_pos hkey, if_pos hkey]
    · rw [if_neg hkey] at h
      rw [updateSlots, updateSlots, if_neg hkey, if_neg hkey, ih h]

theorem mem_keys_iff : key ∈ slots.map Prod.fst ↔ (slots.lookup key).isSome = true := by
  induction slots with
  | nil => simp
  | cons e rest ih =>
    rw [List.map_cons, List.mem_cons, ih, lookup_cons]
    by_cases hkey : e.1 = key
    · simp [hkey]
    · simp [hkey, Ne.symm hkey]

theorem lookup_eq_some_of_mem (hnodup : (slots.map Prod.fst).Nodup) (h : (key, slot) ∈ slots) :
    slots.lookup key = some slot := by
  induction slots with
  | nil => cases h
  | cons e rest ih =>
    rw [List.map_cons, List.nodup_cons] at hnodup
    rw [lookup_cons]
    rcases List.mem_cons.1 h with rfl | hrest
    · rw [if_pos rfl]
    · have hkey : e.1 ≠ key := by
        rintro rfl
        exact hnodup.1 (List.mem_map.2 ⟨_, hrest, rfl⟩)
      rw [if_neg hkey, ih hnodup.2 hrest]

theorem mem_of_lookup_eq_some (h : slots.lookup key = some slot) : (key, slot) ∈ slots := by
  obtain ⟨before, after, hslots, -⟩ := List.lookup_eq_some_iff.1 h
  rw [hslots]
  exact List.mem_append_right _ List.mem_cons_self

theorem filter_at_key (hnodup : (slots.map Prod.fst).Nodup) (p : CacheSlot V → Bool) :
    (slots.filter fun e => p e.2 && decide (e.1 = key)).map Prod.snd =
      ((slots.lookup key).filter p).toList := by
  induction slots with
  | nil => rfl
  | cons e rest ih =>
    rw [List.map_cons, List.nodup_cons] at hnodup
    have hrest := ih hnodup.2
    rw [List.filter_cons, lookup_cons]
    by_cases hkey : e.1 = key
    · -- the key does not occur again, so nothing is added to the slot found
      have hnone : rest.lookup key = none := by
        rw [← Option.not_isSome_iff_eq_none, ← mem_keys_iff, ← hkey]
        exact hnodup.1
      rw [hnone] at hrest
      rw [if_pos hkey, decide_eq_true hkey, Bool.and_true]
      cases hp : p e.2 with
      | true => simp only [if_true, List.map_cons, hrest, Option.filter, hp]; rfl
      | false => simp only [Bool.false_eq_true, if_false, hrest, Option.filter, hp]
    · rw [if_neg hkey, decide_eq_false hkey, Bool.and_false]
      exact hrest

theorem keys_updateSlots : (updateSlots key f slots).map Prod.fst = slots.map Prod.fst := by
  induction slots with
  | nil => rfl
  | cons e rest ih =>
    rw [updateSlots]
    split
    · rfl
    · rw [List.map_cons, List.map_cons, ih]

theorem nodup_keys_put (h : (slots.map Prod.fst).Nodup) :
    ((put key slot slots).map Prod.fst).Nodup := by
  unfold put
  split
  · rw [keys_updateSlots]
    exact h
  · rename_i hnone
    rw [List.map_append, List.nodup_append]
    refine ⟨h, List.pairwise_singleton _ _, ?_⟩
    rintro k hk _ hkey rfl
    obtain rfl : k = key := List.mem_singleton.1 hkey
    exact hnone (mem_keys_iff.1 hk)

theorem length_updateSlots : (updateSlots key f slots).length = slots.length := by
  have hkeys : ((updateSlots key f slots).map Prod.fst).length = (slots.map Prod.fst).length := by
    rw [keys_updateSlots]
  simpa only [List.length_map] using hkeys

theorem length_put : (put key slot slots).length =
    if (slots.lookup key).isSome then slots.length else slots.length + 1 := by
  unfold put
  split
  · exact length_updateSlots
  · rw [List.length_append, List.length_singleton]

/-! ## Cache operations -/

variable {c : ViewCache V} {fits : V → Bool} {make : V}

@[simp] theorem factory_acquire : (c.acquire key fits make).1.factory = c.factory := by
  unfold acquire
  split
  · split <;> rfl
  · rfl

theorem acquired_cases (c : ViewCache V) (key : CacheKey) (fits : V → Bool) (make : V) :
    (c.acquire key fits make).2 = make ∨
      ∃ slot, (key, slot) ∈ c.slots ∧ (c.acquire key fits make).2 = slot.view := by
  unfold acquire
  split
  · rename_i slot hslot
    split
    · exact .inr ⟨slot, mem_of_lookup_eq_some hslot, rfl⟩
    · exact .inl rfl
  · exact .inl rfl

theorem slots_updateView_acquire (c : ViewCache V) (key : CacheKey) (fits : V → Bool)
    (make v : V) :
    ((c.acquire key fits make).1.updateView key fun _ => v).slots = put key ⟨v, true⟩ c.slots := by
  have hinstall : ((c.install key make).updateView key fun _ => v).slots =
      put key ⟨v, true⟩ c.slots := by
    show updateSlots key _ (put key ⟨make, true⟩ c.slots) = _
    exact updateSlots_put
  unfold acquire
  split
  · rename_i slot hslot
    split
    · have hsome : (c.slots.lookup key).isSome = true := Option.isSome_of_eq_some hslot
      show updateSlots key _ (updateSlots key _ c.slots) = _
      rw [updateSlots_updateSlots, put, if_pos hsome]
      rfl
    · exact hinstall
  · exact hinstall

theorem isInUse_eq_false (h : Every (fun _ slot => slot.inUse = false) c.slots) :
    c.isInUse key = false := by
  unfold isInUse slot?
  cases hslot : c.slots.lookup key with
  | none => rfl
  | some slot => exact h _ (mem_of_lookup_eq_some hslot)

variable [Bindable V]

theorem releasedSlot_cases (factory : ViewFactory V) (slot : CacheSlot V) :
    (releasedSlot factory slot).view = Bindable.unbind slot.view ∨
    (releasedSlot factory slot).view = factory.release (Bindable.unbind slot.view) := by
  unfold releasedSlot
  cases factory.takesBack with
  | true => exact .inr rfl
  | false => exact .inl rfl

@[simp] theorem factory_release : (c.release key).factory = c.factory := by
  unfold release
  split <;> rfl

theorem slots_release :
    (c.release key).slots = updateSlots key (releasedSlot c.factory) c.slots := by
  unfold release
  split
  · rename_i h
    exact (updateSlots_of_lookup_eq_none h).symm
  · rfl

theorem every_releaseInUse (h : Every P c.slots)
    (hkeep : ∀ key slot, P key slot → slot.inUse = false → Q key slot)
    (hf : ∀ key slot, P key slot → Q key (releasedSlot c.factory slot)) :
    Every Q c.releaseInUse.slots := by
  intro e he
  obtain ⟨⟨key, slot⟩, hmem, rfl⟩ := List.mem_map.1 he
  have hslot := h _ hmem
  by_cases huse : slot.inUse = true
  · simp only [huse, if_true]
    exact hf key slot hslot
  · simp only [huse]
    exact hkeep key slot hslot (Bool.eq_false_iff.2 huse)

theorem inUse_releaseInUse (c : ViewCache V) :
    Every (fun _ slot => slot.inUse = false) c.releaseInUse.slots :=
  every_releaseInUse (P := fun _ _ => True) (fun _ _ => trivial) (fun _ _ _ hfree => hfree)
    fun _ _ _ => rfl

theorem keys_releaseInUse : c.releaseInUse.slots.map Prod.fst = c.slots.map Prod.fst := by
  rw [releaseInUse, List.map_map]
  rfl

end ViewCache

end FrameIndex
