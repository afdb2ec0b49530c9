import FrameIndex.HeaderId.Known

/-!
Header records: where in a frame a header lies.

A record is 64 bits: the offset (bits 0 to 15), the length (bits 16 to 31) and the header
identifier (bits 32 to 63). `ofBits_bits` and `bits_ofBits` say that this loses nothing. The
presence bits of a list of records are the classes that occur in it.
-/

namespace FrameIndex

/-- A header and the range of frame bytes it takes. -/
structure HeaderRecord where
  id : HeaderId
  offset : UInt16
  length : UInt16
  deriving DecidableEq

namespace HeaderRecord

def start (r : HeaderRecord) : Nat := r.offset.toNat

def size (r : HeaderRecord) : Nat := r.length.toNat

def stop (r : HeaderRecord) : Nat := r.start + r.size

def bits (r : HeaderRecord) : Nat := r.id.bits * 4294967296 + r.size * 65536 + r.start

def ofBits (n : Nat) : HeaderRecord :=
  ⟨HeaderId.ofBits (n / 4294967296), UInt16.ofNat n, UInt16.ofNat (n / 65536)⟩

/-- The eight bytes of a record in a descriptor. -/
def encode (r : HeaderRecord) : Bytes := Bytes.toLE 8 r.bits

/-- The record in the first eight bytes. -/
def decode (bs : Bytes) : HeaderRecord := ofBits (bs.le 0 8)

/-- The header's name and range, as in `tcp@34+20`. -/
def summary (r : HeaderRecord) : String := s!"{r.id.name}@{r.start}+{r.size}"

/-- The record spelled out with all its fields. -/
def describe (r : HeaderRecord) : String :=
  s!"HeaderRecord({r.id.name} offset={r.start} length={r.size})"

theorem start_lt (r : HeaderRecord) : r.start < 65536 := r.offset.toNat_lt

theorem size_lt (r : HeaderRecord) : r.size < 65536 := r.length.toNat_lt

theorem bits_lt (r : HeaderRecord) : r.bits < 18446744073709551616 := by
  have := r.id.bits_lt
  have := r.start_lt
  have := r.size_lt
  simp only [bits]
  omega

theorem ofBits_bits (r : HeaderRecord) : ofBits r.bits = r := by
  obtain ⟨id, offset, length⟩ := r
  have ho := offset.toNat_lt
  have hl := length.toNat_lt
  have hid := id.bits_lt
  simp only [ofBits, bits, start, size, mk.injEq]
  refine ⟨?_, ?_, ?_⟩
  · rw [show (id.bits * 4294967296 + length.toNat * 65536 + offset.toNat) / 4294967296 = id.bits
      by omega, HeaderId.ofBits_bits]
  · apply UInt16.toNat_inj.1
    rw [UInt16.toNat_ofNat']
    omega
  · apply UInt16.toNat_inj.1
    rw [UInt16.toNat_ofNat']
    omega

theorem bits_ofBits (n : Nat) : (ofBits n).bits = n % 18446744073709551616 := by
  simp only [ofBits, bits, start, size, HeaderId.bits_ofBits, UInt16.toNat_ofNat']
  omega

theorem decode_encode (r : HeaderRecord) (rest : Bytes) : decode (r.encode ++ rest) = r := by
  have h : (r.encode ++ rest).slice 0 8 = r.encode := by simp [Bytes.slice, encode]
  have hl : r.bits < Bytes.limit 8 := r.bits_lt
  rw [decode, Bytes.le, h, encode, Bytes.ofLE_toLE, Nat.mod_eq_of_lt hl, ofBits_bits]

end HeaderRecord

/-- The class bits that occur in a list of records. -/
def classesOf (records : List HeaderRecord) : Nat :=
  records.foldl (fun presence r => presence ||| r.id.classes.val) 0

/-- Whether presence bits include one of the identifier's classes. -/
def showsClass (presence : Nat) (id : HeaderId) : Bool := presence &&& id.classes.val != 0

/-- Whether presence bits rule a header out: it has classes, and none of them is present. -/
def rulesOut (presence : Nat) (id : HeaderId) : Bool := id.hasClass && !showsClass presence id

end FrameIndex
