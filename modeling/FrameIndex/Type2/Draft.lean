import FrameIndex.Type2

/-!
Drafting a descriptor with header records. A draft takes records one at a time, so that what it
encodes is always accepted again: never more than sixteen records, each within the captured bytes,
and no option before the header that owns it.
-/

namespace FrameIndex

namespace Type2

/-- A descriptor that is still being put together. -/
structure Draft where
  captureLength : UInt16
  /-- The length on the wire; the capture length when unset. -/
  wireLength : Option UInt16 := none
  timestamp : UInt64 := 0
  rxPort : UInt8 := 0
  txPort : UInt8 := 0
  framing : LinkFraming := .ether
  color : UInt8 := 0
  flags : UInt16 := 0
  hashType : FlowHashType := .none
  hash24 : UInt32 := 0
  /-- The presence bits; the classes of the records when unset. -/
  presence : Option UInt32 := none
  records : List HeaderRecord := []
  deriving DecidableEq

namespace Draft

/-- The next record, if the draft takes it. `limit` is the most records it may hold, if any. -/
def accept? (d : Draft) (limit : Option Nat) (id : HeaderId) (offset length : Nat) :
    Except LayoutError HeaderRecord :=
  if limit.any (· ≤ d.records.length) then
    .error (.tooManyRecords (d.records.length + 1) (limit.getD 0))
  else if d.captureLength.toNat < offset + length then
    .error (.recordOutOfBounds d.records.length (offset + length) d.captureLength.toNat)
  else if id.isOption && d.records.isEmpty then .error .orphanOptions
  else .ok ⟨id, UInt16.ofNat offset, UInt16.ofNat length⟩

/-- Adds a record within a limit on their number. -/
def pushWithin (d : Draft) (limit : Option Nat) (id : HeaderId) (offset length : Nat) :
    Except LayoutError Draft :=
  (d.accept? limit id offset length).map fun r => { d with records := d.records ++ [r] }

/-- Adds a record to a draft of at most sixteen. -/
def push (d : Draft) (id : HeaderId) (offset length : Nat) : Except LayoutError Draft :=
  d.pushWithin (some maxRecords) id offset length

/-- Drops the records and keeps everything else. -/
def reset (d : Draft) : Draft := { d with records := [] }

/-- The flags and the record count in one word. -/
def flagsWord (d : Draft) : Nat := d.flags.toNat % 2048 + d.records.length * 2048

/-- The flow hash and its type in one word. -/
def hashWord (d : Draft) : Nat := d.hashType.code * 16777216 + d.hash24.toNat % 16777216

/-- The presence bits that are encoded. -/
def presenceBits (d : Draft) : Nat := (d.presence.map (·.toNat)).getD (classesOf d.records)

/-- The wire length that is encoded. -/
def wireBytes (d : Draft) : Nat := (d.wireLength.getD d.captureLength).toNat

/-- The bytes of the header region. -/
def encodeHeader (d : Draft) : Bytes :=
  Bytes.toLE 8 d.timestamp.toNat ++ Bytes.toLE 2 d.captureLength.toNat ++
  Bytes.toLE 2 d.wireBytes ++
  [d.rxPort, d.txPort, UInt8.ofNat d.framing.code, d.color] ++
  Bytes.toLE 2 d.flagsWord ++ Bytes.toLE 2 0 ++ Bytes.toLE 4 d.hashWord ++
  Bytes.toLE 4 d.presenceBits

/-- The bytes of the descriptor. -/
def encode (d : Draft) : Bytes := d.encodeHeader ++ d.records.flatMap HeaderRecord.encode

end Draft

end Type2

end FrameIndex
