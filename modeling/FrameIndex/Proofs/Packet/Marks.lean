import FrameIndex.Proofs.Packet.Faults
import FrameIndex.Proofs.Packet.Twins

/-!
# Which cached views are in use

Whether the view under a key is in use can be told from the requests and their answers alone. A view
that is handed out is in use from then on; one that refuses its range, or is returned, is free; and
with the frame, all views are let go of. Other requests, and those for headers that are not there,
say nothing of a key (`Request.mark?`). The last that says anything decides
(`Packet.isInUse_run`), so two packets that answer alike have views in use alike, but for keys that
nothing was said of.
-/

namespace FrameIndex

/-- What the answer to a request for a cached view says of its use. -/
def Answer.mark? : Answer → Option Bool
  | .view (.ok found) => found.map fun _ => true
  | .view (.error (.binding _ _ _)) => some false
  | .view (.error _) | .done _ => none

/-- What a request and its answer say of the use of the view under a key. -/
def Request.mark? (key : CacheKey) (answer : Answer) : Request → Option Bool
  | .bind _ _ | .unbind | .clone => some false
  | .attach _ | .attachEncoded _ _ => none
  | .header id _ | .demandHeader id _ => if key = .ofHeader id then answer.mark? else none
  | .extension parent ext _ => if key = .ofExtension parent ext then answer.mark? else none
  | .releaseHeader id => if key = .ofHeader id then some false else none
  | .releaseExtension parent ext => if key = .ofExtension parent ext then some false else none

def lastMark? (key : CacheKey) : List (Request × Answer) → Option Bool
  | [] => none
  | (r, answer) :: rest => (lastMark? key rest).or (r.mark? key answer)

variable {V : Type}

/-! ## Caches -/

namespace ViewCache

theorem isInUse_of_slots_eq_put {c c' : ViewCache V} {key : CacheKey} {slot : CacheSlot V}
    (h : c'.slots = put key slot c.slots) (k : CacheKey) :
    c'.isInUse k = (if k = key then some slot.inUse else none).getD (c.isInUse k) := by
  rw [isInUse, slot?, h, lookup_put]
  split <;> rfl

theorem isInUse_release [Bindable V] (c : ViewCache V) (key k : CacheKey) :
    (c.release key).isInUse k = (if k = key then some false else none).getD (c.isInUse k) := by
  rw [isInUse, slot?, slots_release, lookup_updateSlots]
  split
  · cases c.slots.lookup k <;> rfl
  · rfl

end ViewCache

/-! ## Requests -/

namespace Packet

variable [Bindable V]

theorem mark?_shown_bindOnto (factory : ViewFactory V) (data : Bytes) (ix : HeaderIndex)
    (options : Option OptionRun) (l : Placement) (v : V) :
    let bound := bindOnto data ix options l v
    (shown (bound.2.map fun _ => some bound.1)).mark? = some (settled factory bound).inUse := by
  intro bound
  by_cases h : ∃ w fault, Refuses data options l v w fault
  · obtain ⟨w, fault, hrefuses⟩ := h
    have hbound : bound = _ := bindOnto_of_refuses hrefuses ix
    rw [hbound]
    rfl
  · have htakes : bound.2 = .ok () :=
      bindOnto_of_takes (fun w fault hrefuses => h ⟨w, fault, hrefuses⟩) ix
    rw [settled, htakes]
    rfl

theorem isInUse_fetch (p : Packet V) (key : CacheKey) (fits : V → Bool) (make : V)
    (options : Placement → Option OptionRun) (target : Option Placement) (k : CacheKey) :
    let fetched := p.fetch key fits make options target
    fetched.1.cache.isInUse k =
      (if k = key then (shown fetched.2).mark? else none).getD (p.cache.isInUse k) := by
  intro fetched
  cases target with
  | none =>
    -- there is no view, and nothing is said
    have hnone : (if k = key then (shown fetched.2).mark? else none) = none := by
      split <;> rfl
    rw [hnone]
    rfl
  | some l =>
    obtain ⟨cache, hfetch, -, hslots⟩ := p.fetch_eq_settled key fits make options l
    have hmark := mark?_shown_bindOnto p.cache.factory p.data p.index (options l) l
      (Bindable.unbind (p.cache.acquire key fits make).2)
    rw [show fetched = _ from hfetch, hmark]
    exact ViewCache.isInUse_of_slots_eq_put hslots k

theorem mark?_demanded (id : HeaderId) (depth : Nat) (answer : Answer) :
    (demanded id depth answer).mark? = answer.mark? := by
  unfold demanded
  split <;> rfl

theorem isInUse_serve (p : Packet V) (r : Request) (key : CacheKey) :
    (p.serve r).1.cache.isInUse key =
      (r.mark? key (p.serve r).2).getD (p.cache.isInUse key) := by
  have hfree : p.cache.releaseInUse.isInUse key = false :=
    ViewCache.isInUse_eq_false p.cache.inUse_releaseInUse
  cases r with
  | bind data descriptor =>
    show (p.bind data descriptor).1.cache.isInUse key = false
    rw [cache_bind, hfree]
  | unbind => exact hfree
  | attach d => rfl
  | attachEncoded layout bs =>
    simp only [serve, attachEncoded]
    cases Descriptor.ofBytes layout bs <;> rfl
  | header id depth =>
    have hfetch := p.cachedHeader_eq_fetch id depth
    show (p.cachedHeader id depth).1.cache.isInUse key =
      (if key = .ofHeader id then (shown (p.cachedHeader id depth).2).mark? else none).getD _
    rw [hfetch]
    exact p.isInUse_fetch _ _ _ _ _ key
  | demandHeader id depth =>
    have hfetch := p.cachedHeader_eq_fetch id depth
    show (p.demandHeader id depth).1.cache.isInUse key =
      (if key = .ofHeader id then (shown ((p.demandHeader id depth).2.map some)).mark?
        else none).getD _
    rw [snd_demandHeader, mark?_demanded, fst_demandHeader, hfetch]
    exact p.isInUse_fetch _ _ _ _ _ key
  | extension parent ext depth =>
    have hfetch := p.cachedExtension_eq_fetch parent ext depth
    show (p.cachedExtension parent ext depth).1.cache.isInUse key =
      (if key = .ofExtension parent ext then (shown (p.cachedExtension parent ext depth).2).mark?
        else none).getD _
    rw [hfetch]
    exact p.isInUse_fetch _ _ _ _ _ key
  | releaseHeader id => exact p.cache.isInUse_release (.ofHeader id) key
  | releaseExtension parent ext => exact p.cache.isInUse_release (.ofExtension parent ext) key
  | clone => rfl

theorem isInUse_run (p : Packet V) (requests : List Request) (key : CacheKey) :
    (p.run requests).1.cache.isInUse key =
      (lastMark? key (requests.zip (p.run requests).2)).getD (p.cache.isInUse key) := by
  induction requests generalizing p with
  | nil => rfl
  | cons r rest ih =>
    have hrest := ih (p.serve r).1
    rw [isInUse_serve] at hrest
    refine hrest.trans ?_
    show _ = ((lastMark? key (rest.zip ((p.serve r).1.run rest).2)).or
      (r.mark? key (p.serve r).2)).getD (p.cache.isInUse key)
    cases lastMark? key (rest.zip ((p.serve r).1.run rest).2) <;> rfl

end Packet

end FrameIndex
