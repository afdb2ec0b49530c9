import FrameIndex.Proofs.ViewCache.Slots
import Mathlib.Logic.Function.Basic

/-!
# What can be asked of a cache

A cache serves requests one after another (`ViewCache.serve`, `ViewCache.run`). Views are acquired
and released by name, and in between anything may be done with a view that is there. So it does not
matter here whether a factory makes the same view every time.

Two names have one key exactly if their headers have the same packs and protocols
(`ViewName.key_eq_iff`). An acquisition finds its view or creates it, and says which
(`ViewCache.acquireView_cases`); either way one slot is put under the key of the name. With that,
every request does to the slots what it does to a map (`ViewCache.slot?_serve`), and so does every
run (`ViewCache.slot?_run`).
-/

namespace FrameIndex

variable {V : Type}

/-- What a view is asked for by: its header, or the header it extends and its own. -/
inductive ViewName where
  | header (id : HeaderId)
  | extension (parent ext : HeaderId)

namespace ViewName

def key : ViewName → CacheKey
  | header id => .ofHeader id
  | extension parent ext => .ofExtension parent ext

/-- The names are those of the same headers: classes do not count. -/
def SameHeaders : ViewName → ViewName → Prop
  | header a, header b => a.pack = b.pack ∧ a.protocol = b.protocol
  | extension a x, extension b y =>
    (a.pack = b.pack ∧ a.protocol = b.protocol) ∧ x.pack = y.pack ∧ x.protocol = y.protocol
  | _, _ => False

theorem key_eq_iff {a b : ViewName} : a.key = b.key ↔ a.SameHeaders b := by
  have hordinal : ∀ x y : HeaderId,
      x.ordinal = y.ordinal ↔ x.pack = y.pack ∧ x.protocol = y.protocol := by
    intro x y
    rw [← HeaderId.agrees_iff, HeaderId.agrees, beq_iff_eq]
  cases a <;> cases b <;>
    simp [key, SameHeaders, CacheKey.ofHeader, CacheKey.ofExtension, hordinal]

/-- Whether a view that was kept will do. -/
def fits [Bindable V] : ViewName → V → Bool
  | header _, _ => true
  | extension _ ext, v => (Bindable.id v).agrees ext

end ViewName

/-- The view that is created by name. -/
def ViewFactory.makeFor (f : ViewFactory V) : ViewName → V
  | .header id => f.make id
  | .extension parent ext => f.makeExtension parent ext

inductive CacheRequest (V : Type) where
  | acquire (name : ViewName)
  /-- To do something with a view that is there. -/
  | use (name : ViewName) (f : V → V)
  | release (name : ViewName)
  | releaseInUse
  | restartCounts

def CacheRequest.key? : CacheRequest V → Option CacheKey
  | acquire name | use name _ | release name => some name.key
  | releaseInUse | restartCounts => none

abbrev SlotMap (V : Type) := CacheKey → Option (CacheSlot V)

section

variable {c d : ViewCache V} {key : CacheKey} {slot : CacheSlot V} {g : CacheSlot V → CacheSlot V}

theorem ViewCache.slot?_of_slots_eq_updateSlots (h : d.slots = updateSlots key g c.slots) :
    d.slot? = Function.update c.slot? key ((c.slot? key).map g) := by
  funext k
  rw [slot?, h, lookup_updateSlots, Function.update_apply]
  by_cases hk : k = key
  · rw [if_pos hk, if_pos hk, hk]
    rfl
  · rw [if_neg hk, if_neg hk]
    rfl

theorem ViewCache.slot?_of_slots_eq_put (h : d.slots = put key slot c.slots) :
    d.slot? = Function.update c.slot? key (some slot) := by
  funext k
  rw [slot?, h, lookup_put, Function.update_apply]
  rfl

end

theorem update_map_apply (m : SlotMap V) (key k : CacheKey) (g : CacheSlot V → CacheSlot V) :
    Function.update m key ((m key).map g) k =
      (m k).map fun slot => if k = key then g slot else slot := by
  rw [Function.update_apply]
  by_cases hk : k = key
  · simp [hk]
  · simp [hk]

variable [Bindable V]

/-- The view that is acquired by name: the one of the slot if it will do, or else a new one. -/
def ViewFactory.viewFor (f : ViewFactory V) (name : ViewName) : Option (CacheSlot V) → V
  | some slot => if name.fits slot.view then slot.view else f.makeFor name
  | none => f.makeFor name

def CacheRequest.onMap (f : ViewFactory V) (m : SlotMap V) : CacheRequest V → SlotMap V
  | acquire name => Function.update m name.key (some ⟨f.viewFor name (m name.key), true⟩)
  | use name g =>
    Function.update m name.key ((m name.key).map fun slot => { slot with view := g slot.view })
  | release name => Function.update m name.key ((m name.key).map (ViewCache.releasedSlot f))
  | releaseInUse => fun key =>
    (m key).map fun slot => if slot.inUse then ViewCache.releasedSlot f slot else slot
  | restartCounts => m

namespace ViewCache

/-- The view with a name, in use from now on. -/
def acquireView (c : ViewCache V) : ViewName → ViewCache V × V
  | .header id => c.acquireHeader id
  | .extension parent ext => c.acquireExtension parent ext

def serve (c : ViewCache V) : CacheRequest V → ViewCache V
  | .acquire name => (c.acquireView name).1
  | .use name f => c.updateView name.key f
  | .release name => c.release name.key
  | .releaseInUse => c.releaseInUse
  | .restartCounts => c.restartCounts

def run (c : ViewCache V) (requests : List (CacheRequest V)) : ViewCache V :=
  requests.foldl serve c

theorem acquireView_cases (c : ViewCache V) (name : ViewName) :
    (∃ slot, c.slot? name.key = some slot ∧ name.fits slot.view = true ∧
      c.acquireView name =
        ({ c with slots := put name.key ⟨slot.view, true⟩ c.slots, hits := c.hits + 1 },
          slot.view)) ∨
    ((∀ slot, c.slot? name.key = some slot → name.fits slot.view = false) ∧
      c.acquireView name =
        (c.install name.key (c.factory.makeFor name), c.factory.makeFor name)) := by
  have hacquire : c.acquireView name = c.acquire name.key name.fits (c.factory.makeFor name) := by
    cases name <;> rfl
  rw [hacquire, acquire]
  cases hslot : c.slot? name.key with
  | none => exact .inr ⟨nofun, rfl⟩
  | some slot =>
    by_cases hfits : name.fits slot.view = true
    · refine .inl ⟨slot, rfl, hfits, ?_⟩
      simp only [hfits, if_true]
      rw [updateSlots_of_lookup_eq_some hslot]
    · rw [Bool.not_eq_true] at hfits
      refine .inr ⟨?_, ?_⟩
      · rintro _ ⟨⟩
        exact hfits
      · simp only [hfits, Bool.false_eq_true, if_false]

theorem slots_acquireView (c : ViewCache V) (name : ViewName) :
    (c.acquireView name).1.slots = put name.key ⟨(c.acquireView name).2, true⟩ c.slots := by
  rcases c.acquireView_cases name with ⟨slot, -, -, hacquire⟩ | ⟨-, hacquire⟩
  · rw [hacquire]
  · rw [hacquire]
    rfl

theorem snd_acquireView (c : ViewCache V) (name : ViewName) :
    (c.acquireView name).2 = c.factory.viewFor name (c.slot? name.key) := by
  rcases c.acquireView_cases name with ⟨slot, hslot, hfits, hacquire⟩ | ⟨hmisses, hacquire⟩
  · rw [hacquire, hslot, ViewFactory.viewFor, if_pos hfits]
  · rw [hacquire]
    cases hslot : c.slot? name.key with
    | none => rfl
    | some slot => simp [ViewFactory.viewFor, hmisses slot hslot]

theorem factory_serve (c : ViewCache V) (r : CacheRequest V) :
    (c.serve r).factory = c.factory := by
  cases r with
  | acquire name =>
    show (c.acquireView name).1.factory = c.factory
    rcases c.acquireView_cases name with ⟨slot, -, -, hacquire⟩ | ⟨-, hacquire⟩
    · rw [hacquire]
    · rw [hacquire]
      rfl
  | release name => exact factory_release
  | use name g | releaseInUse | restartCounts => rfl

/-- A request does to the slots of a cache what it does to a map. -/
theorem slot?_serve (c : ViewCache V) (r : CacheRequest V) :
    (c.serve r).slot? = r.onMap c.factory c.slot? := by
  cases r with
  | acquire name =>
    rw [CacheRequest.onMap, ← snd_acquireView]
    exact slot?_of_slots_eq_put (c.slots_acquireView name)
  | use name g => exact slot?_of_slots_eq_updateSlots rfl
  | release name => exact slot?_of_slots_eq_updateSlots slots_release
  | releaseInUse =>
    funext k
    exact lookup_map_snd fun slot => if slot.inUse then releasedSlot c.factory slot else slot
  | restartCounts => rfl

theorem slot?_run (c : ViewCache V) (requests : List (CacheRequest V)) :
    (c.run requests).slot? = requests.foldl (CacheRequest.onMap c.factory) c.slot? := by
  induction requests generalizing c with
  | nil => rfl
  | cons r rest ih =>
    have hrest := ih (c.serve r)
    rw [factory_serve, slot?_serve] at hrest
    exact hrest

theorem run_of_serve {P : ViewCache V → Prop} (hserve : ∀ c r, P c → P (c.serve r))
    {c : ViewCache V} (h : P c) (requests : List (CacheRequest V)) : P (c.run requests) := by
  induction requests generalizing c with
  | nil => exact h
  | cons r rest ih => exact ih (hserve c r h)

theorem factory_run (c : ViewCache V) (requests : List (CacheRequest V)) :
    (c.run requests).factory = c.factory :=
  run_of_serve (P := fun d => d.factory = c.factory)
    (fun d r hd => (factory_serve d r).trans hd) rfl requests

theorem slot?_serve_of_ne (c : ViewCache V) {r : CacheRequest V} {key k : CacheKey}
    (hr : r.key? = some key) (hk : k ≠ key) : (c.serve r).slot? k = c.slot? k := by
  rw [slot?_serve]
  cases r with
  | acquire name | use name g | release name =>
    obtain rfl := Option.some.inj hr
    exact Function.update_of_ne hk _ _
  | releaseInUse | restartCounts => cases hr

end ViewCache

end FrameIndex
