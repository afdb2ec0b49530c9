import FrameIndex.Proofs.IndexedFrame.Binding

/-!
# The records of a dissected frame

The descriptor of a frame holds the records that the traversal noted. They tile the front of the
frame (`IndexedFrame.records_tile`), and if a record was left out, then because there were sixteen
already (`IndexedFrame.refused_traversal`).
-/

namespace FrameIndex

namespace IndexedFrame

open HeaderRecord

theorem records_indexed (frame : Frame) :
    Type2.records (indexed frame).descriptor = (traversal frame).draft.records := by
  have hlen : (draft frame).records.length < 32 :=
    Nat.lt_of_le_of_lt (length_records_le frame) (by decide)
  exact Type2.records_encode hlen

theorem refused_traversal (frame : Frame) :
    (traversal frame).refused = none ∨
      (traversal frame).refused = some (.tooManyRecords 17 16) := by
  obtain ⟨stop, edge, hlaid, -⟩ := tidy_traversal frame
  cases hrefused : (traversal frame).refused with
  | none => exact .inl rfl
  | some refusal =>
    obtain ⟨⟨n, hn, hle⟩, hsurplus⟩ := hlaid.refuses refusal hrefused
    obtain rfl : Type2.maxRecords = n := Option.some.inj (hlaid.limit_eq.symm.trans hn)
    have hcount : (traversal frame).draft.records.length = Type2.maxRecords :=
      Nat.le_antisymm (hlaid.sound.count _ rfl) hle
    refine .inr (congrArg some ?_)
    rw [hsurplus, Traversal.surplus, hlaid.limit_eq, hcount]
    rfl

/-- **The records tile the front of the frame.** The headers alone begin at its first byte and
follow one another without a gap. The options behind a header are its own and fill it from its 21st
byte on, as far as they go; there are none in front of the first header. So the records stand in the
order of their offsets. -/
theorem records_tile (frame : Frame) :
    let records := Type2.records (indexed frame).descriptor
    Adjoining 0 (records.filter (!·.id.isInner)) ∧
    leadingOptions records = [] ∧
    (∀ before header after, records = before ++ header :: after → header.id.isInner = false →
      Inside header (leadingOptions after)) ∧
    (∀ r ∈ records, r.stop ≤ (clip frame).length) ∧
    records.Pairwise fun a b => a.start ≤ b.start := by
  intro records
  obtain ⟨stop, edge, hlaid, -⟩ := tidy_traversal frame
  have htiled : Tiled records stop edge := by
    show Tiled (Type2.records (indexed frame).descriptor) stop edge
    rw [records_indexed]
    exact hlaid.tiled
  refine ⟨htiled.adjoining_headers.1, htiled.leadingOptions_eq_nil, ?_, ?_,
    htiled.pairwise_start_le⟩
  · intro before header after hsplit houter
    exact (htiled.inside_header hsplit houter).1
  · intro r hr
    exact Nat.le_trans (htiled.stop_le r hr) hlaid.stop_le

end IndexedFrame

end FrameIndex
