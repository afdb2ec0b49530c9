/-!
Byte strings: numbers of a fixed width in either byte order, ranges, and hexadecimal text.

Reading is total: bytes past the end count as zero. What is written in a width reads back modulo
that width (`ofLE_toLE`).
-/

namespace FrameIndex

/-- A byte string. -/
abbrev Bytes := List UInt8

/-- Which byte of a number comes first. -/
inductive ByteOrder where
  | little
  | big
  deriving DecidableEq

namespace Bytes

/-- The number spelled by a byte string, least significant byte first. -/
def ofLE : Bytes → Nat
  | [] => 0
  | b :: bs => b.toNat + 256 * ofLE bs

/-- The number spelled by a byte string, most significant byte first. -/
def ofBE (bs : Bytes) : Nat := ofLE bs.reverse

/-- The low `width` bytes of a number, least significant first. -/
def toLE : Nat → Nat → Bytes
  | 0, _ => []
  | width + 1, n => UInt8.ofNat n :: toLE width (n / 256)

/-- The first number that does not fit in `width` bytes. -/
def limit : Nat → Nat
  | 0 => 1
  | width + 1 => 256 * limit width

/-- The bytes from `offset` on, at most `length` of them. -/
def slice (bs : Bytes) (offset length : Nat) : Bytes := (bs.drop offset).take length

/-- The little-endian number in `width` bytes at `offset`. -/
def le (bs : Bytes) (offset width : Nat) : Nat := ofLE (bs.slice offset width)

/-- The big-endian number in `width` bytes at `offset`. -/
def be (bs : Bytes) (offset width : Nat) : Nat := ofBE (bs.slice offset width)

/-- The number in `width` bytes at `offset`, in the given byte order. -/
def num (order : ByteOrder) (bs : Bytes) (offset width : Nat) : Nat :=
  match order with
  | .little => bs.le offset width
  | .big => bs.be offset width

/-- The byte at an index, as a number; 0 past the end. -/
def byteAt (bs : Bytes) (index : Nat) : Nat := (bs[index]?.map UInt8.toNat).getD 0

def hexDigit (n : Nat) : Char := Nat.digitChar (n % 16)

/-- Two lower-case hexadecimal digits a byte. -/
def hex (bs : Bytes) : String :=
  String.ofList (bs.flatMap fun b => [hexDigit (b.toNat / 16), hexDigit b.toNat])

@[simp] theorem length_toLE (width n : Nat) : (toLE width n).length = width := by
  induction width generalizing n <;> simp [toLE, *]

theorem ofLE_lt (bs : Bytes) : ofLE bs < limit bs.length := by
  induction bs with
  | nil => simp [ofLE, limit]
  | cons b bs ih =>
    have hb := b.toNat_lt
    simp only [ofLE, List.length_cons, limit]
    omega

/-- What is written in a width reads back modulo that width. -/
theorem ofLE_toLE (width n : Nat) : ofLE (toLE width n) = n % limit width := by
  induction width generalizing n with
  | zero => simp [toLE, ofLE, limit, Nat.mod_one]
  | succ width ih => rw [toLE, ofLE, ih, limit, Nat.mod_mul, UInt8.toNat_ofNat']

@[simp] theorem length_slice (bs : Bytes) (offset length : Nat) :
    (bs.slice offset length).length = min length (bs.length - offset) := by
  simp [slice]

end Bytes

end FrameIndex
