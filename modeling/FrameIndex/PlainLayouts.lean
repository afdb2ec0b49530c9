import FrameIndex.HeaderIndex

/-!
The two layouts without header records, both little-endian and of fixed size.

A capture summary takes 24 bytes: timestamp (8), capture length (2), wire length (2), link type (2),
reserved (10). Fragment data takes 16 bytes: identification (4), fragment offset (2), flags (1),
IP version (1), data offset (2), data length (2), reserved (4).
-/

namespace FrameIndex

/-- The lengths, timestamp and link type of a captured frame. -/
structure CaptureSummary where
  captureLength : UInt16
  /-- The length on the wire; the capture length when unset. -/
  wireLength : Option UInt16 := none
  timestamp : UInt64 := 0
  linkType : UInt16 := 0
  deriving DecidableEq

namespace CaptureSummary

def size : Nat := 24

def timestampOf (bs : Bytes) : Nat := bs.le 0 8
def captureLengthOf (bs : Bytes) : Nat := bs.le 8 2
def wireLengthOf (bs : Bytes) : Nat := bs.le 10 2
def linkTypeOf (bs : Bytes) : Nat := bs.le 12 2

def encode (s : CaptureSummary) : Bytes :=
  Bytes.toLE 8 s.timestamp.toNat ++ Bytes.toLE 2 s.captureLength.toNat ++
  Bytes.toLE 2 (s.wireLength.getD s.captureLength).toNat ++ Bytes.toLE 2 s.linkType.toNat ++
  Bytes.toLE 10 0

/-- Accepts every byte string that is long enough. -/
def check (bs : Bytes) : Except LayoutError Unit := Layout.pcap.requireLength bs size

end CaptureSummary

/-- Where the data of an IP fragment lies, and where it belongs in its datagram. -/
structure FragmentPlace where
  identification : UInt32 := 0
  offset : UInt16 := 0
  flags : UInt8 := 0
  ipVersion : UInt8 := 0
  dataOffset : UInt16 := 0
  dataLength : UInt16 := 0
  deriving DecidableEq

namespace FragmentPlace

def size : Nat := 16

/-- The flag of a fragment that others follow. -/
def moreBit : Nat := 0
/-- The flag of the last fragment. -/
def lastBit : Nat := 1
/-- The flag of a reassembled datagram. -/
def reassembledBit : Nat := 2
/-- The flag of a complete datagram. -/
def completeBit : Nat := 3
/-- The flag of a reassembly that took too long. -/
def timedOutBit : Nat := 4

def encode (f : FragmentPlace) : Bytes :=
  Bytes.toLE 4 f.identification.toNat ++ Bytes.toLE 2 f.offset.toNat ++
  [f.flags, f.ipVersion] ++ Bytes.toLE 2 f.dataOffset.toNat ++
  Bytes.toLE 2 f.dataLength.toNat ++ Bytes.toLE 4 0

def decode (bs : Bytes) : FragmentPlace where
  identification := UInt32.ofNat (bs.le 0 4)
  offset := UInt16.ofNat (bs.le 4 2)
  flags := UInt8.ofNat (bs.byteAt 6)
  ipVersion := UInt8.ofNat (bs.byteAt 7)
  dataOffset := UInt16.ofNat (bs.le 8 2)
  dataLength := UInt16.ofNat (bs.le 10 2)

def hasFlag (f : FragmentPlace) (bit : Nat) : Bool := f.flags.toNat.testBit bit

/-- Accepts every byte string that is long enough. -/
def check (bs : Bytes) : Except LayoutError Unit := Layout.ipf.requireLength bs size

end FragmentPlace

end FrameIndex
