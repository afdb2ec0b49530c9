import FrameIndex.HeaderIndex

/-!
The layout with header records. All numbers are little-endian.

| offset | size  | field                                                  |
|--------|-------|--------------------------------------------------------|
| 0      | 8     | timestamp                                              |
| 8      | 2     | capture length                                         |
| 10     | 2     | wire length                                            |
| 12     | 1     | receive port                                           |
| 13     | 1     | transmit port                                          |
| 14     | 1     | link framing                                           |
| 15     | 1     | color                                                  |
| 16     | 2     | flags (bits 0 to 10), record count (bits 11 to 15)     |
| 18     | 2     | reserved                                               |
| 20     | 4     | flow hash (bits 0 to 23), its type (bits 24 to 31)     |
| 24     | 4     | presence bits                                          |
| 28     | 8 * n | header records                                         |

The reads are total: the empty byte string reads as if every field were zero.
-/

namespace FrameIndex

/-- How the frame is framed at the link layer. -/
inductive LinkFraming where
  | ether
  | llc
  | snap
  | novellRaw
  | isl
  | other
  deriving DecidableEq

namespace LinkFraming

/-- The framing's number in a descriptor. -/
def code : LinkFraming → Nat
  | .ether => 0
  | .llc => 1
  | .snap => 2
  | .novellRaw => 3
  | .isl => 4
  | .other => 255

/-- The framing with a number; every unassigned number stands for `other`. -/
def ofCode : Nat → LinkFraming
  | 0 => .ether
  | 1 => .llc
  | 2 => .snap
  | 3 => .novellRaw
  | 4 => .isl
  | _ => .other

end LinkFraming

/-- Which fields went into a flow hash. -/
inductive FlowHashType where
  | none
  | tuple2
  | tuple3
  | tuple5
  | tuple5Sorted
  | mac
  deriving DecidableEq

namespace FlowHashType

/-- The type's number in a descriptor. -/
def code : FlowHashType → Nat
  | .none => 0
  | .tuple2 => 1
  | .tuple3 => 2
  | .tuple5 => 3
  | .tuple5Sorted => 4
  | .mac => 5

/-- The type with a number; every unassigned number stands for `none`. -/
def ofCode : Nat → FlowHashType
  | 1 => .tuple2
  | 2 => .tuple3
  | 3 => .tuple5
  | 4 => .tuple5Sorted
  | 5 => .mac
  | _ => .none

end FlowHashType

namespace Type2

/-- The size of the header region. -/
def headerSize : Nat := 28

/-- The most records a descriptor holds. -/
def maxRecords : Nat := 16

/-- The size of a descriptor with a number of records. -/
def sizeFor (records : Nat) : Nat := headerSize + 8 * records

def timestamp (bs : Bytes) : Nat := bs.le 0 8
def captureLength (bs : Bytes) : Nat := bs.le 8 2
def wireLength (bs : Bytes) : Nat := bs.le 10 2
def rxPort (bs : Bytes) : Nat := bs.byteAt 12
def txPort (bs : Bytes) : Nat := bs.byteAt 13
def framing (bs : Bytes) : LinkFraming := .ofCode (bs.byteAt 14)
def color (bs : Bytes) : Nat := bs.byteAt 15

/-- The receive and transmit flags, without the record count. -/
def flags (bs : Bytes) : Nat := bs.le 16 2 % 2048

/-- The record count that the flags word carries. -/
def recordCount (bs : Bytes) : Nat := bs.le 16 2 / 2048

/-- The whole word of the flow hash. -/
def hashWord (bs : Bytes) : Nat := bs.le 20 4

/-- The flow hash without its type. -/
def hash24 (bs : Bytes) : Nat := hashWord bs % 16777216

def hashType (bs : Bytes) : FlowHashType := .ofCode (hashWord bs / 16777216)

def presence (bs : Bytes) : Nat := bs.le 24 4

/-- The first `count` records of a run of encoded records. -/
def readRecords : Nat → Bytes → List HeaderRecord
  | 0, _ => []
  | count + 1, bs => HeaderRecord.decode bs :: readRecords count (bs.drop 8)

/-- The records of a descriptor. -/
def records (bs : Bytes) : List HeaderRecord :=
  readRecords (recordCount bs) (bs.drop headerSize)

/-- The first record, counted from `index`, that ends after the captured bytes. -/
def overrun? (captureLength : Nat) : Nat → List HeaderRecord → Option LayoutError
  | _, [] => none
  | index, r :: rest =>
    if captureLength < r.stop then some (.recordOutOfBounds index r.stop captureLength)
    else overrun? captureLength (index + 1) rest

/-- Accepts the byte strings of this layout: a whole header region, at most sixteen records, all of
them present, and each within the captured bytes. -/
def check (bs : Bytes) : Except LayoutError Unit := do
  Layout.type2.requireLength bs headerSize
  if maxRecords < recordCount bs then throw (.tooManyRecords (recordCount bs) maxRecords)
  Layout.type2.requireLength bs (sizeFor (recordCount bs))
  match overrun? (captureLength bs) 0 (records bs) with
  | some refusal => throw refusal
  | none => pure ()

end Type2

end FrameIndex
