import FrameIndex.Proofs.Capture.Trailing

/-!
# Classic captures as they are written

A classic capture is a header and entries (`ClassicFile`), written in one of two byte orders and
with one of two units for the fraction of a second. An entry at the front of some bytes is read back
as it was written (`ClassicEntry.read_encode`), and one that was cut off is known to be so
(`ClassicEntry.read_cut`). So it is settled what a feed answers that has a part of an entry and
nothing behind it (`ClassicEntry.settled_cut`).
-/

namespace FrameIndex

/-- A record that is written to a classic capture. The number of bytes captured is that of its
data. -/
structure ClassicEntry where
  seconds : UInt32
  fraction : UInt32
  onWire : UInt32
  data : Bytes
  small : data.length < UInt32.size

namespace ClassicEntry

open Bytes (write)

variable {order : ByteOrder} {e : ClassicEntry} {bs : Bytes}

def size (e : ClassicEntry) : Nat := ClassicRecord.headerLength + e.data.length

def header (order : ByteOrder) (e : ClassicEntry) : Bytes :=
  write order 4 e.seconds.toNat ++ (write order 4 e.fraction.toNat ++
    (write order 4 e.data.length ++ write order 4 e.onWire.toNat))

def encode (order : ByteOrder) (e : ClassicEntry) : Bytes := e.header order ++ e.data

/-- What is to be read back. -/
def record (e : ClassicEntry) : ClassicRecord where
  seconds := e.seconds.toNat
  fraction := e.fraction.toNat
  captured := e.data.length
  onWire := e.onWire.toNat
  data := e.data

@[simp] theorem length_header (order : ByteOrder) (e : ClassicEntry) :
    (e.header order).length = 16 := by
  simp [header]

@[simp] theorem length_encode (order : ByteOrder) (e : ClassicEntry) :
    (e.encode order).length = e.size := by
  simp [encode, size, ClassicRecord.headerLength]

theorem num_encode (order : ByteOrder) (e : ClassicEntry) :
    (e.encode order).num order 0 4 = e.seconds.toNat ∧
      (e.encode order).num order 4 4 = e.fraction.toNat ∧
      (e.encode order).num order 8 4 = e.data.length ∧
      (e.encode order).num order 12 4 = e.onWire.toNat := by
  have hlimit : Bytes.limit 4 = UInt32.size := rfl
  simp only [encode, header, List.append_assoc]
  refine ⟨?_, ?_, ?_, ?_⟩
  · rw [Bytes.num_write_append, hlimit, Nat.mod_eq_of_lt e.seconds.toNat_lt]
  · rw [Bytes.num_append_of_le (by simp), Bytes.length_write, Bytes.num_write_append, hlimit,
      Nat.mod_eq_of_lt e.fraction.toNat_lt]
  · rw [Bytes.num_append_of_le (by simp), Bytes.num_append_of_le (by simp), Bytes.length_write,
      Bytes.length_write, Bytes.num_write_append, hlimit, Nat.mod_eq_of_lt e.small]
  · rw [Bytes.num_append_of_le (by simp), Bytes.num_append_of_le (by simp),
      Bytes.num_append_of_le (by simp), Bytes.length_write, Bytes.length_write, Bytes.length_write,
      Bytes.num_write_append, hlimit, Nat.mod_eq_of_lt e.onWire.toNat_lt]

theorem num_captured (h : bs <+: e.encode order) (hlen : 16 ≤ bs.length) :
    bs.num order 8 4 = e.data.length := by
  obtain ⟨more, hmore⟩ := h
  rw [← (e.num_encode order).2.2.1, ← hmore, Bytes.num_append_left (by omega)]

theorem read_encode (order : ByteOrder) (e : ClassicEntry) (more : Bytes) :
    ∃ shorter, ClassicRecord.read order (e.encode order ++ more) =
      .whole e.record more shorter := by
  obtain ⟨hseconds, hfraction, hcaptured, honWire⟩ := e.num_encode order
  have hsize : ClassicRecord.headerLength + e.data.length = (e.encode order).length :=
    (e.length_encode order).symm
  have hdata : (e.encode order).slice ClassicRecord.headerLength e.data.length = e.data := by
    rw [encode, Bytes.slice_append_of_le (by simp [ClassicRecord.headerLength]), length_header]
    simp [Bytes.slice, ClassicRecord.headerLength]
  have hread := @ClassicRecord.read_append_of_le order (e.encode order) more
    (Nat.le_of_eq (by rw [hcaptured, hsize]))
  simp only [hseconds, hfraction, hcaptured, honWire, hdata, hsize, List.drop_length,
    List.nil_append] at hread
  exact hread

/-- How much a record that was cut off lacks: the rest of its header, or the rest of it. -/
theorem read_cut (h : bs <+: e.encode order) (hlt : bs.length < e.size) :
    ∃ missing, ClassicRecord.read order bs = .cutOff missing ∧
      (bs.length < 16 ∧ bs.length + missing = 16 ∨
        16 ≤ bs.length ∧ bs.length + missing = e.size) := by
  by_cases hheader : bs.length < ClassicRecord.headerLength
  · refine ⟨_, ClassicRecord.read_of_lt_header hheader, .inl ⟨hheader, ?_⟩⟩
    simp only [ClassicRecord.headerLength] at *
    omega
  · have hlen : 16 ≤ bs.length := Nat.le_of_not_lt hheader
    have hcaptured := num_captured h hlen
    simp only [size] at hlt
    refine ⟨_, ClassicRecord.read_of_lt hlen (by rwa [hcaptured]), .inr ⟨hlen, ?_⟩⟩
    rw [hcaptured, size]
    omega

/-! ## What a feed makes of an entry -/

open Feed (settled capacity)

theorem settled_cut (h : bs <+: e.encode order) (hne : bs ≠ []) (hlt : bs.length < e.size) :
    (settled (ClassicRecord.read order) bs).1 =
      if 16 ≤ bs.length ∧ capacity ≤ e.size then .error (.parse .bufferTooSmall)
      else .error (.parse .unexpectedEnd) := by
  have hlen : (bs.take capacity).length = min capacity bs.length := List.length_take
  have hcapacity : capacity = 65536 := rfl
  obtain ⟨missing, hcut, hmissing⟩ :=
    read_cut ((List.take_prefix capacity bs).trans h) (by omega)
  by_cases hlarge : 16 ≤ bs.length ∧ capacity ≤ e.size
  · rw [Feed.settled_tooLarge hcut (by omega), if_pos hlarge]
  · rw [Feed.settled_end hcut (by omega), if_neg hlarge, if_neg (mt List.isEmpty_iff.1 hne)]

end ClassicEntry

/-! ## Files -/

/-- What is written to a classic capture: the fields of its header, and its entries. -/
structure ClassicFile where
  order : ByteOrder
  nanoseconds : Bool
  majorVersion : UInt16
  minorVersion : UInt16
  zone : UInt32
  accuracy : UInt32
  snapLength : UInt32
  network : UInt32
  entries : List ClassicEntry

namespace ClassicFile

open Bytes (write)

/-- The magic number that tells a byte order and a unit. -/
def magic : ByteOrder → Bool → Bytes
  | .little, false => [0xd4, 0xc3, 0xb2, 0xa1]
  | .big, false => [0xa1, 0xb2, 0xc3, 0xd4]
  | .little, true => [0x4d, 0x3c, 0xb2, 0xa1]
  | .big, true => [0xa1, 0xb2, 0x3c, 0x4d]

def header (file : ClassicFile) : Bytes :=
  magic file.order file.nanoseconds ++ write file.order 2 file.majorVersion.toNat ++
    write file.order 2 file.minorVersion.toNat ++ write file.order 4 file.zone.toNat ++
    write file.order 4 file.accuracy.toNat ++ write file.order 4 file.snapLength.toNat ++
    write file.order 4 file.network.toNat

def encodeEntries (file : ClassicFile) (entries : List ClassicEntry) : Bytes :=
  entries.flatMap (ClassicEntry.encode file.order)

def encode (file : ClassicFile) : Bytes := file.header ++ file.encodeEntries file.entries

/-- No more bytes of a packet are captured than the header says. -/
def RespectsSnapLength (file : ClassicFile) : Prop :=
  ∀ e ∈ file.entries, e.data.length ≤ file.snapLength.toNat

def frame (file : ClassicFile) (number : Nat) (e : ClassicEntry) : Frame where
  number
  timestamp := e.seconds.toNat * 1000000 +
    (if file.nanoseconds then e.fraction.toNat / 1000 else e.fraction.toNat)
  captured := e.data.length
  onWire := e.onWire.toNat
  linkType := file.network.toNat % 65536
  data := e.data

/-- The frames that are to be read of entries behind a number of others. -/
def frames (file : ClassicFile) : Nat → List ClassicEntry → List Frame
  | _, [] => []
  | count, e :: entries => file.frame (count + 1) e :: file.frames (count + 1) entries

/-- What is to be read of the header. -/
def readHeader (file : ClassicFile) : ClassicHeader where
  order := file.order
  nanoseconds := file.nanoseconds
  linkType := file.network.toNat % 65536

variable {file : ClassicFile} {bs : Bytes}

@[simp] theorem length_magic (order : ByteOrder) (nanoseconds : Bool) :
    (magic order nanoseconds).length = 4 := by
  cases order <;> cases nanoseconds <;> rfl

theorem ofMagic?_magic (order : ByteOrder) (nanoseconds : Bool) :
    ClassicHeader.ofMagic? (magic order nanoseconds) = some (order, nanoseconds) := by
  cases order <;> cases nanoseconds <;> rfl

@[simp] theorem length_header (file : ClassicFile) :
    file.header.length = ClassicHeader.length := by
  simp [header, ClassicHeader.length]

theorem read_header (file : ClassicFile) :
    ClassicHeader.read file.header = .ok file.readHeader := by
  have hmagic : ClassicHeader.ofMagic? (file.header.take 4) =
      some (file.order, file.nanoseconds) := by
    simp only [header, List.append_assoc]
    rw [List.take_append_of_le_length (by simp), List.take_of_length_le (by simp), ofMagic?_magic]
  have hnetwork : file.header.num file.order 20 4 = file.network.toNat := by
    have hlast := Bytes.num_write_append file.order 4 file.network.toNat []
    rw [List.append_nil] at hlast
    rw [header, Bytes.num_append_of_le (by simp)]
    simp only [List.length_append, length_magic, Bytes.length_write]
    exact hlast.trans (Nat.mod_eq_of_lt file.network.toNat_lt)
  rw [ClassicHeader.read_eq_ok (Nat.le_of_eq file.length_header.symm) hmagic, hnetwork]
  rfl

end ClassicFile

end FrameIndex
