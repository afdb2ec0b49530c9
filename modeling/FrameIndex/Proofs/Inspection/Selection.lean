import FrameIndex.Inspection
import FrameIndex.Proofs.Packet.Confinement
import FrameIndex.Proofs.Packet.Twins

/-!
# What is selected of a frame

Selecting goes through the depths of a header until it is not there, and binds the one cached view
of the header at each. A view never refuses a range that is looked up, shows the bytes of that
range, and is returned before the next depth. So what is selected can be told from the lookups alone
(`Inspection.occurrences`), and no view stays in use (`Inspection.select_eq`). If the ranges at the
depths are those of a list that is not longer than the depths that are tried, then all of the list
is selected (`Inspection.occurrences_eq_entries`).
-/

namespace FrameIndex

def Placement.range (l : Placement) : ByteRange := ⟨l.offset, l.length⟩

namespace Packet

variable {V : Type} {p q : Packet V}

def Idle (p : Packet V) : Prop := ViewCache.Every (fun _ slot => slot.inUse = false) p.cache.slots

theorem Fits.of_sameReads (h : p.Fits) (hreads : SameReads p q) : q.Fits := by
  obtain ⟨cache, rfl⟩ := hreads.exists_cache
  exact ⟨h.bounded, h.captureLength_le⟩

/-- The cached view of a header that is there shows it, and is the only one in use then. -/
theorem Fits.cachedHeader_eq {p : Packet RawView} (h : p.Fits) {id : HeaderId} {depth : Nat}
    {l : Placement} (hl : p.locate? id depth = some l) :
    ∃ q v, p.cachedHeader id depth = (q, .ok (some v)) ∧
      v.Shows p.data l (ownOptions? p.index l) ∧ SameReads p (q.release (.ofHeader id)) ∧
      (p.Idle → (q.release (.ofHeader id)).Idle) := by
  have hwithin : l.stop ≤ p.data.length := Nat.le_trans (h.stop_locate?_le hl) h.captureLength_le
  have hoptions : ∀ run, ownOptions? p.index l = some run → run.stop ≤ p.data.length :=
    fun _ hrun => Nat.le_trans (h.stop_ownOptions?_le hrun) h.captureLength_le
  obtain ⟨cache, hfetch, hfactory, hslots⟩ := p.fetch_eq_settled (.ofHeader id) (fun _ => true)
    (p.cache.factory.make id) (ownOptions? p.index) l
  rw [bindOnto_unbind hwithin hoptions] at hfetch hslots
  rw [cachedHeader_eq_fetch, hl]
  refine ⟨_, _, hfetch, RawView.shows_shown hwithin _ _, ⟨rfl, rfl, rfl⟩, fun hidle => ?_⟩
  show ViewCache.Every _ (cache.release (.ofHeader id)).slots
  rw [ViewCache.slots_release, hslots, ViewCache.updateSlots_put]
  exact ViewCache.every_put hidle rfl

end Packet

namespace Inspection

def entry (data : Bytes) (depth : Nat) (range : ByteRange) : HeaderMatch where
  depth
  offset := range.offset
  length := range.length
  preview := Bytes.hex (data.slice range.offset (min previewLength range.length))

theorem selectedAt?_eq {v : RawView} {data : Bytes} {l : Placement} {run : Option OptionRun}
    (h : v.Shows data l run) (depth : Nat) :
    selectedAt? v depth = some (entry data depth l.range) := by
  unfold selectedAt?
  rw [h.placement_eq, h.bytes_eq]
  simp only [Bytes.slice, List.take_take]
  rfl

/-- The entries from a depth on, up to the first depth that nothing is found at. -/
def occurrences (data : Bytes) (find : Nat → Option Placement) : Nat → Nat → List HeaderMatch
  | 0, _ => []
  | count + 1, depth =>
    match find depth with
    | none => []
    | some l => entry data depth l.range :: occurrences data find count (depth + 1)

theorem select_eq {p : Packet RawView} (h : p.Fits) (id : HeaderId) (count depth : Nat) :
    ∃ q, select id count depth p = (q, .ok (occurrences p.data (p.locate? id) count depth)) ∧
      p.SameReads q ∧ (p.Idle → q.Idle) := by
  induction count generalizing p depth with
  | zero => exact ⟨p, rfl, ⟨rfl, rfl, rfl⟩, fun hidle => hidle⟩
  | succ count ih =>
    unfold select occurrences
    cases hl : p.locate? id depth with
    | none =>
      have hnone : p.cachedHeader id depth = (p, .ok none) := by rw [Packet.cachedHeader, hl]
      simp only [hnone]
      exact ⟨p, rfl, ⟨rfl, rfl, rfl⟩, fun hidle => hidle⟩
    | some l =>
      obtain ⟨q, v, hview, hshows, hreads, hidle⟩ := h.cachedHeader_eq hl
      obtain ⟨r, hrest, hreads', hidle'⟩ := ih (h.of_sameReads hreads) (depth + 1)
      -- the packet reads the same at the next depth
      rw [← hreads.data_eq, funext (hreads.locate?_eq id)] at hrest
      simp only [hview, hrest, selectedAt?_eq hshows]
      exact ⟨r, rfl, hreads.trans hreads', fun h => hidle' (hidle h)⟩

/-- The entries of a list of ranges, at depths from a first one on. -/
def entries (data : Bytes) (depth : Nat) (ranges : List ByteRange) : List HeaderMatch :=
  (ranges.zipIdx depth).map fun e => entry data e.2 e.1

theorem occurrences_eq_entries {find : Nat → Option Placement} {ranges : List ByteRange}
    (hfind : ∀ depth, (find depth).map Placement.range = ranges[depth]?) (data : Bytes)
    {count depth : Nat} (hcount : ranges.length ≤ depth + count) :
    occurrences data find count depth = entries data depth (ranges.drop depth) := by
  induction count generalizing depth with
  | zero =>
    rw [List.drop_eq_nil_of_le (show ranges.length ≤ depth from hcount)]
    rfl
  | succ count ih =>
    have hdepth := hfind depth
    unfold occurrences
    cases hl : find depth with
    | none =>
      rw [hl] at hdepth
      rw [List.drop_eq_nil_of_le (List.getElem?_eq_none_iff.1 hdepth.symm)]
      rfl
    | some l =>
      rw [hl] at hdepth
      obtain ⟨hlt, hget⟩ := List.getElem?_eq_some_iff.1 hdepth.symm
      have hrest := ih (show ranges.length ≤ depth + 1 + count by omega)
      rw [List.drop_eq_getElem_cons hlt, hget]
      simp only [hrest]
      rfl

end Inspection

end FrameIndex
