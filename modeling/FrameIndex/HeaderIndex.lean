import FrameIndex.Layout
import FrameIndex.Record.Search

/-!
The header index of a frame: its lengths, its timestamp and its header records, and the lookups
that resolve a header to a range of frame bytes.

A lookup never fails: what is not there is `none`. A header is looked up by its depth, the number
of headers of the same kind before it. An option belongs to the header whose record it follows.
-/

namespace FrameIndex

/-- Where a header lies, and which record says so. -/
structure Placement where
  offset : Nat
  length : Nat
  /-- The record's index; none for a range that is derived and not recorded. -/
  record : Option Nat
  layout : Layout
  deriving DecidableEq

/-- The first byte after the range. -/
def Placement.stop (l : Placement) : Nat := l.offset + l.length

/-- What a packet descriptor says of its frame. -/
structure HeaderIndex where
  layout : Layout
  captureLength : Nat
  wireLength : Nat
  timestamp : Nat
  presence : Nat
  records : List HeaderRecord
  deriving DecidableEq

namespace HeaderIndex

def recorded? (ix : HeaderIndex) (index : Nat) : Option Placement :=
  ix.records[index]?.map fun r =>
    { offset := r.start, length := r.size, record := some index, layout := ix.layout }

/-- Everything from an offset to the end of the captured bytes. -/
def restFrom (ix : HeaderIndex) (offset : Nat) : Placement :=
  { offset, length := ix.captureLength - offset, record := none, layout := ix.layout }

/-- The first byte after the last record; 0 without records. -/
def payloadStart (ix : HeaderIndex) : Nat := (ix.records.getLast?.map (·.stop)).getD 0

/-- The index of the header at a depth, unless the presence bits rule the header out. -/
def recordOf? (ix : HeaderIndex) (id : HeaderId) (depth : Nat) : Option Nat :=
  if rulesOut ix.presence id then none else HeaderRecord.occurrence? id ix.records depth

/-- The range of the recorded header at a depth. The payload is never recorded. -/
def header? (ix : HeaderIndex) (id : HeaderId) (depth : Nat) : Option Placement :=
  if id.isPayload then none else (ix.recordOf? id depth).bind ix.recorded?

/-- The record that owns an extension: the hinted one, or the header at a depth. -/
def parent? (ix : HeaderIndex) (id : HeaderId) (depth : Nat) : Option Nat → Option Nat
  | some index => if index < ix.records.length then some index else none
  | none => ix.recordOf? id depth

/-- The range of an option of the header at a depth. As an extension, the payload is everything
after the header. -/
def extension? (ix : HeaderIndex) (id ext : HeaderId) (depth : Nat) (hint : Option Nat) :
    Option Placement :=
  (ix.parent? id depth hint).bind fun parent =>
    if ext.isPayload then ix.records[parent]?.map fun r => ix.restFrom r.stop
    else (HeaderRecord.option? ix.records parent ext).bind ix.recorded?

def options? (ix : HeaderIndex) (index : Nat) : Option OptionRun :=
  HeaderRecord.optionRun? ix.records index

/-- Layout, lengths and records in one line. -/
def summary (ix : HeaderIndex) : String :=
  s!"{ix.layout.name} caplen={ix.captureLength} wirelen={ix.wireLength} records=[" ++
    ", ".intercalate (ix.records.map (·.summary)) ++ "]"

end HeaderIndex

end FrameIndex
