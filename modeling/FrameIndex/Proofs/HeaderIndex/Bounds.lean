import FrameIndex.HeaderIndex

/-!
# Lookups stay within the captured bytes

If every record of a header index ends within the captured bytes (`HeaderIndex.Bounded`), then so
does every range that a lookup derives: records, what lies behind them, and runs of options. Records
may overlap and stand in any order, so the end of a run may lie in front of its beginning; the
length of such a run is 0. Without records nothing is found
(`HeaderIndex.header?_of_records_eq_nil`).
-/

namespace FrameIndex

namespace HeaderIndex

def Bounded (ix : HeaderIndex) : Prop := ∀ r ∈ ix.records, r.stop ≤ ix.captureLength

variable {ix : HeaderIndex}

theorem Bounded.stop_recorded?_le (h : ix.Bounded) {index : Nat} {l : Placement}
    (hl : ix.recorded? index = some l) : l.stop ≤ ix.captureLength := by
  obtain ⟨r, hr, rfl⟩ := Option.map_eq_some_iff.1 hl
  exact h r (List.mem_of_getElem? hr)

theorem stop_restFrom {offset : Nat} (h : offset ≤ ix.captureLength) :
    (ix.restFrom offset).stop = ix.captureLength := by
  simp only [Placement.stop, restFrom]
  omega

theorem Bounded.payloadStart_le (h : ix.Bounded) : ix.payloadStart ≤ ix.captureLength := by
  unfold payloadStart
  cases hr : ix.records.getLast? with
  | none => exact Nat.zero_le _
  | some r => exact h r (List.mem_of_getLast? hr)

theorem Bounded.stop_header?_le (h : ix.Bounded) {id : HeaderId} {depth : Nat} {l : Placement}
    (hl : ix.header? id depth = some l) : l.stop ≤ ix.captureLength := by
  unfold header? at hl
  split at hl
  · cases hl
  · obtain ⟨index, -, hl⟩ := Option.bind_eq_some_iff.1 hl
    exact h.stop_recorded?_le hl

theorem Bounded.stop_extension?_le (h : ix.Bounded) {id ext : HeaderId} {depth : Nat}
    {hint : Option Nat} {l : Placement} (hl : ix.extension? id ext depth hint = some l) :
    l.stop ≤ ix.captureLength := by
  obtain ⟨parent, -, hl⟩ := Option.bind_eq_some_iff.1 hl
  split at hl
  · obtain ⟨r, hr, rfl⟩ := Option.map_eq_some_iff.1 hl
    exact Nat.le_of_eq (stop_restFrom (h r (List.mem_of_getElem? hr)))
  · obtain ⟨index, -, hl⟩ := Option.bind_eq_some_iff.1 hl
    exact h.stop_recorded?_le hl

theorem mem_of_mem_optionsAfter {records : List HeaderRecord} {parent : Nat} {r : HeaderRecord}
    (hr : r ∈ HeaderRecord.optionsAfter records parent) : r ∈ records :=
  List.mem_of_mem_drop ((List.takeWhile_sublist _).subset hr)

theorem Bounded.stop_options?_le (h : ix.Bounded) {index : Nat} {run : OptionRun}
    (hrun : ix.options? index = some run) : run.stop ≤ ix.captureLength := by
  unfold options? HeaderRecord.optionRun? at hrun
  split at hrun
  · cases hrun
  · rename_i head tail hopts
    have hmem : ∀ r ∈ head :: tail, r.stop ≤ ix.captureLength := fun r hr =>
      h r (mem_of_mem_optionsAfter (hopts ▸ hr))
    have hhead := hmem head List.mem_cons_self
    have hlast : (tail.getLastD head).stop ≤ ix.captureLength :=
      hmem _ (List.getLastD_mem_cons)
    cases hrun
    -- the length is cut off at 0 where the last option ends in front of the first
    simp only [OptionRun.stop, HeaderRecord.stop] at *
    omega

/-! ## Without records -/

theorem recordOf?_of_records_eq_nil (h : ix.records = []) (id : HeaderId) (depth : Nat) :
    ix.recordOf? id depth = none := by
  unfold recordOf?
  rw [h]
  split <;> rfl

theorem header?_of_records_eq_nil (h : ix.records = []) (id : HeaderId) (depth : Nat) :
    ix.header? id depth = none := by
  unfold header?
  rw [recordOf?_of_records_eq_nil h]
  split <;> rfl

theorem extension?_of_records_eq_nil (h : ix.records = []) (id ext : HeaderId) (depth : Nat)
    (hint : Option Nat) : ix.extension? id ext depth hint = none := by
  have hparent : ix.parent? id depth hint = none := by
    cases hint with
    | none => exact recordOf?_of_records_eq_nil h id depth
    | some index =>
      rw [parent?, h]
      rfl
  rw [extension?, hparent]
  rfl

end HeaderIndex

end FrameIndex
