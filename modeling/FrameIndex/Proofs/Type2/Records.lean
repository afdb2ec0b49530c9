import FrameIndex.Type2
import FrameIndex.Proofs.Fields

/-!
# Runs of encoded records

A run is read record by record, eight bytes each. So the record at an index is the one that the
eight bytes there spell (`Type2.getElem?_readRecords`), the records of a run are encoded as its
bytes again, and bytes behind the run do not matter (`Type2.readRecords_take`).
-/

namespace FrameIndex

namespace Type2

theorem length_readRecords (count : Nat) (bs : Bytes) : (readRecords count bs).length = count := by
  induction count generalizing bs with
  | zero => rfl
  | succ count ih => exact congrArg (· + 1) (ih (bs.drop 8))

theorem length_records (bs : Bytes) : (records bs).length = recordCount bs := length_readRecords _ _

theorem getElem?_readRecords {count index : Nat} (h : index < count) (bs : Bytes) :
    (readRecords count bs)[index]? = some (HeaderRecord.decode (bs.drop (8 * index))) := by
  induction count generalizing index bs with
  | zero => cases h
  | succ count ih =>
    cases index with
    | zero => rfl
    | succ index =>
      rw [readRecords, List.getElem?_cons_succ, ih (Nat.lt_of_succ_lt_succ h), List.drop_drop,
        Nat.mul_succ, Nat.add_comm]

theorem flatMap_encode_readRecords {count : Nat} {bs : Bytes} (h : 8 * count ≤ bs.length) :
    (readRecords count bs).flatMap HeaderRecord.encode = bs.take (8 * count) := by
  induction count generalizing bs with
  | zero => rfl
  | succ count ih =>
    have hrest : 8 * count ≤ (bs.drop 8).length := by
      rw [List.length_drop]
      omega
    rw [readRecords, List.flatMap_cons, HeaderRecord.encode_decode (by omega), ih hrest,
      ← List.take_add, Nat.mul_succ, Nat.add_comm]

theorem readRecords_take (count : Nat) (bs : Bytes) :
    readRecords count (bs.take (8 * count)) = readRecords count bs := by
  induction count generalizing bs with
  | zero => rfl
  | succ count ih =>
    have hfirst : HeaderRecord.decode (bs.take (8 * (count + 1))) = HeaderRecord.decode bs := by
      rw [HeaderRecord.decode, HeaderRecord.decode, Bytes.le, Bytes.le, Bytes.slice_take (by omega)]
    rw [readRecords, readRecords, hfirst, List.drop_take, Nat.mul_succ, Nat.add_sub_cancel, ih]

theorem readRecords_append {count : Nat} {bs : Bytes} (h : 8 * count ≤ bs.length) (rest : Bytes) :
    readRecords count (bs ++ rest) = readRecords count bs := by
  rw [← readRecords_take, List.take_append_of_le_length h, readRecords_take]

end Type2

end FrameIndex
