import FrameIndex.Record

/-!
# Fields of a byte string

A field of a range is a field of the whole (`Bytes.num_slice`). A field behind others is read by
skipping these (`Bytes.num_append_of_le`), and one in front reads back what was written in its width
(`Bytes.num_write_append`). Writing a number that was read gives the bytes again (`Bytes.toLE_le`).
-/

namespace FrameIndex

namespace Bytes

theorem drop_slice (bs : Bytes) (offset length n : Nat) :
    (bs.slice offset length).drop n = bs.slice (offset + n) (length - n) := by
  rw [slice, slice, List.drop_take, List.drop_drop]

theorem slice_drop (bs : Bytes) (offset n length : Nat) :
    Bytes.slice (bs.drop n) offset length = bs.slice (n + offset) length := by
  rw [slice, slice, List.drop_drop]

theorem slice_slice {bs : Bytes} {start size offset length : Nat} (h : offset + length ≤ size) :
    (bs.slice start size).slice offset length = bs.slice (start + offset) length := by
  rw [slice, drop_slice, slice, List.take_take, Nat.min_eq_left (by omega), slice]

theorem num_eq_of_slice_eq {order : ByteOrder} {a b : Bytes} {offset offset' width : Nat}
    (h : a.slice offset width = b.slice offset' width) :
    a.num order offset width = b.num order offset' width := by
  cases order with
  | little => exact congrArg ofLE h
  | big => exact congrArg ofBE h

theorem num_slice {order : ByteOrder} {bs : Bytes} {start size offset width : Nat}
    (h : offset + width ≤ size) :
    (bs.slice start size).num order offset width = bs.num order (start + offset) width :=
  num_eq_of_slice_eq (slice_slice h)

theorem slice_take {bs : Bytes} {n offset length : Nat} (h : offset + length ≤ n) :
    Bytes.slice (bs.take n) offset length = bs.slice offset length := by
  rw [slice, slice, List.drop_take, List.take_take, Nat.min_eq_left (by omega)]

theorem num_take {order : ByteOrder} {bs : Bytes} {n offset width : Nat} (h : offset + width ≤ n) :
    Bytes.num order (bs.take n) offset width = bs.num order offset width :=
  num_eq_of_slice_eq (slice_take h)

theorem slice_append_left {a b : Bytes} {offset length : Nat} (h : offset + length ≤ a.length) :
    (a ++ b).slice offset length = a.slice offset length := by
  rw [slice, slice, List.drop_append_of_le_length (by omega),
    List.take_append_of_le_length (by rw [List.length_drop]; omega)]

theorem num_append_left {order : ByteOrder} {a b : Bytes} {offset width : Nat}
    (h : offset + width ≤ a.length) : (a ++ b).num order offset width = a.num order offset width :=
  num_eq_of_slice_eq (slice_append_left h)

theorem be_append_left {a b : Bytes} {offset width : Nat} (h : offset + width ≤ a.length) :
    (a ++ b).be offset width = a.be offset width :=
  @num_append_left .big a b offset width h

theorem byteAt_append_left {a b : Bytes} {index : Nat} (h : index < a.length) :
    (a ++ b).byteAt index = a.byteAt index := by
  rw [byteAt, byteAt, List.getElem?_append_left h]

theorem slice_append_of_le {a b : Bytes} {offset length : Nat} (h : a.length ≤ offset) :
    (a ++ b).slice offset length = b.slice (offset - a.length) length := by
  rw [slice, slice, List.drop_append, List.drop_eq_nil_of_le h, List.nil_append]

theorem num_append_of_le {order : ByteOrder} {a b : Bytes} {offset width : Nat}
    (h : a.length ≤ offset) :
    (a ++ b).num order offset width = b.num order (offset - a.length) width :=
  num_eq_of_slice_eq (slice_append_of_le h)

@[simp] theorem le_append_of_le {a b : Bytes} {offset width : Nat} (h : a.length ≤ offset) :
    (a ++ b).le offset width = b.le (offset - a.length) width := by
  rw [le, le, slice_append_of_le h]

@[simp] theorem byteAt_append_of_le {a b : Bytes} {index : Nat} (h : a.length ≤ index) :
    (a ++ b).byteAt index = b.byteAt (index - a.length) := by
  rw [byteAt, byteAt, List.getElem?_append_right h]

@[simp] theorem le_cons_succ (b : UInt8) (bs : Bytes) (offset width : Nat) :
    Bytes.le (b :: bs) (offset + 1) width = bs.le offset width := rfl

@[simp] theorem byteAt_cons_zero (b : UInt8) (bs : Bytes) :
    Bytes.byteAt (b :: bs) 0 = b.toNat := rfl

@[simp] theorem byteAt_cons_succ (b : UInt8) (bs : Bytes) (index : Nat) :
    Bytes.byteAt (b :: bs) (index + 1) = bs.byteAt index := rfl

@[simp] theorem le_toLE_append (width n : Nat) (rest : Bytes) :
    (toLE width n ++ rest).le 0 width = n % limit width := by
  have hslice : (toLE width n ++ rest).slice 0 width = toLE width n := by
    simp [slice]
  rw [le, hslice, ofLE_toLE]

theorem eq_of_ofLE_eq {a b : Bytes} (hlen : a.length = b.length) (h : ofLE a = ofLE b) : a = b := by
  induction a generalizing b with
  | nil => exact (List.length_eq_zero_iff.1 hlen.symm).symm
  | cons x xs ih =>
    cases b with
    | nil => cases hlen
    | cons y ys =>
      have hx := x.toNat_lt
      have hy := y.toNat_lt
      simp only [ofLE] at h
      obtain rfl : x = y := UInt8.toNat_inj.1 (by omega)
      rw [ih (Nat.succ.inj hlen) (by omega)]

theorem toLE_ofLE (bs : Bytes) : toLE bs.length (ofLE bs) = bs := by
  refine eq_of_ofLE_eq (length_toLE _ _) ?_
  rw [ofLE_toLE, Nat.mod_eq_of_lt (ofLE_lt bs)]

theorem toLE_le {bs : Bytes} {offset width : Nat} (h : offset + width ≤ bs.length) :
    toLE width (bs.le offset width) = bs.slice offset width := by
  have hwidth : (bs.slice offset width).length = width := by
    rw [length_slice]
    omega
  rw [le, ← congrArg (toLE · _) hwidth, toLE_ofLE]

theorem toLE_mod_limit (width n : Nat) : toLE width (n % limit width) = toLE width n := by
  have h := toLE_ofLE (toLE width n)
  rwa [length_toLE, ofLE_toLE] at h

theorem toLE_add (low high n : Nat) :
    toLE (low + high) n = toLE low n ++ toLE high (n / limit low) := by
  induction low generalizing n with
  | zero => simp [toLE, limit]
  | succ low ih =>
    rw [Nat.add_right_comm, toLE, ih, toLE, limit, Nat.div_div_eq_div_mul]
    rfl

theorem ofLE_append (a b : Bytes) : ofLE (a ++ b) = ofLE a + limit a.length * ofLE b := by
  induction a with
  | nil => simp [ofLE, limit]
  | cons x xs ih =>
    rw [List.cons_append, ofLE, ih, ofLE, List.length_cons, limit, Nat.mul_add, Nat.mul_assoc,
      Nat.add_assoc]

theorem limit_le_limit {a b : Nat} (h : a ≤ b) : limit a ≤ limit b := by
  induction h with
  | refl => exact Nat.le_refl _
  | step _ ih =>
    rw [limit]
    omega

theorem le_lt (bs : Bytes) (offset width : Nat) : bs.le offset width < limit width := by
  refine Nat.lt_of_lt_of_le (ofLE_lt _) (limit_le_limit ?_)
  rw [length_slice]
  exact Nat.min_le_left _ _

theorem le_add (bs : Bytes) (offset low high : Nat) :
    bs.le offset (low + high) = bs.le offset low + limit low * bs.le (offset + low) high := by
  have hcut : bs.slice offset (low + high) = bs.slice offset low ++ bs.slice (offset + low) high := by
    simp only [slice, List.take_add, List.drop_drop]
  rw [le, hcut, ofLE_append, le, le]
  by_cases h : offset + low ≤ bs.length
  · rw [length_slice, Nat.min_eq_left (by omega)]
  · -- the high part lies behind the end
    have hhigh : bs.slice (offset + low) high = [] := by
      rw [slice, List.drop_eq_nil_of_le (by omega), List.take_nil]
    rw [hhigh, ofLE, Nat.mul_zero, Nat.mul_zero]

theorem byteAt_lt (bs : Bytes) (index : Nat) : bs.byteAt index < 256 := by
  unfold byteAt
  cases bs[index]? with
  | none => decide
  | some b => exact b.toNat_lt

theorem slice_one {bs : Bytes} {index : Nat} (h : index < bs.length) :
    bs.slice index 1 = [UInt8.ofNat (bs.byteAt index)] := by
  have hbyte : UInt8.ofNat (bs.byteAt index) = bs[index] := by
    rw [byteAt, List.getElem?_eq_getElem h]
    exact UInt8.ofNat_toNat
  rw [slice, hbyte, List.drop_eq_getElem_cons h]
  rfl

theorem byteAt_eq_le (bs : Bytes) (index : Nat) : bs.byteAt index = bs.le index 1 := by
  by_cases h : index < bs.length
  · have := bs.byteAt_lt index
    rw [le, slice_one h, ofLE, ofLE, UInt8.toNat_ofNat']
    omega
  · rw [byteAt, List.getElem?_eq_none (Nat.le_of_not_lt h), le, slice,
      List.drop_eq_nil_of_le (Nat.le_of_not_lt h)]
    rfl

/-- The low `width` bytes of a number in a byte order. -/
def write (order : ByteOrder) (width n : Nat) : Bytes :=
  match order with
  | .little => toLE width n
  | .big => (toLE width n).reverse

@[simp] theorem length_write (order : ByteOrder) (width n : Nat) :
    (write order width n).length = width := by
  cases order <;> simp [write]

theorem num_write_append (order : ByteOrder) (width n : Nat) (rest : Bytes) :
    (write order width n ++ rest).num order 0 width = n % limit width := by
  cases order with
  | little => exact le_toLE_append width n rest
  | big =>
    have hslice : slice ((toLE width n).reverse ++ rest) 0 width = (toLE width n).reverse := by
      simp [slice]
    show ofBE (slice ((toLE width n).reverse ++ rest) 0 width) = _
    rw [hslice, ofBE, List.reverse_reverse, ofLE_toLE]

end Bytes

theorem HeaderRecord.length_encode (r : HeaderRecord) : r.encode.length = 8 :=
  Bytes.length_toLE _ _

/-- Every eight bytes are those of the record that they spell. -/
theorem HeaderRecord.encode_decode {bs : Bytes} (h : 8 ≤ bs.length) :
    (decode bs).encode = bs.take 8 := by
  have hbits : (decode bs).bits = bs.le 0 8 % Bytes.limit 8 := bits_ofBits _
  rw [encode, hbits, Bytes.toLE_mod_limit, Bytes.toLE_le (by omega)]
  rfl

theorem HeaderRecord.stop_decode (bs : Bytes) : (decode bs).stop = bs.le 0 2 + bs.le 2 2 := by
  have hlow : bs.le 0 8 = bs.le 0 2 + 65536 * (bs.le 2 2 + 65536 * bs.le 4 4) := by
    rw [show 8 = 2 + (2 + 4) from rfl, Bytes.le_add, Bytes.le_add]
    rfl
  have hstart : bs.le 0 2 < 65536 := bs.le_lt 0 2
  have hsize : bs.le 2 2 < 65536 := bs.le_lt 2 2
  simp only [stop, start, size, decode, ofBits, UInt16.toNat_ofNat', hlow]
  omega

end FrameIndex
