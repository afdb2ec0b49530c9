import FrameIndex.Descriptor
import FrameIndex.Type2.Memo

/-!
Everything that can be read of a descriptor with header records, once from its bytes
(`Descriptor.read`) and once through what is remembered of them (`Type2.Memo.read`).

The fields are read of the bytes every time. Lookups derive what they need and is not remembered
yet: a header that the presence bits rule out is not looked for, so the records are not read for it,
but an extension reads the records first of all.
-/

namespace FrameIndex

namespace Type2

/-- A read, by the type of its answer. -/
inductive Read : Type → Type where
  | image : Read (Option Bytes)
  | isBound : Read Bool
  | byteSize : Read Nat
  | captureLength : Read Nat
  | wireLength : Read Nat
  | timestamp : Read Nat
  | rxPort : Read Nat
  | txPort : Read Nat
  | framing : Read LinkFraming
  | color : Read Nat
  | flags : Read Nat
  /-- The record count that the flags word carries. -/
  | statedCount : Read Nat
  | hash : Read FlowHash
  | presence : Read Nat
  | records : Read (List HeaderRecord)
  | recordCount : Read Nat
  | record (index : Nat) : Read (Option HeaderRecord)
  | options (parent : Nat) : Read (Option OptionRun)
  | payloadStart : Read Nat
  | header (id : HeaderId) (depth : Nat) : Read (Option Placement)
  | extension (id ext : HeaderId) (depth : Nat) (hint : Option Nat) : Read (Option Placement)

/-- What is read without bytes. -/
def Read.default {α : Type} : Read α → α
  | .image | .record _ | .options _ | .header _ _ | .extension _ _ _ _ => none
  | .isBound => false
  | .byteSize | .captureLength | .wireLength | .timestamp | .rxPort | .txPort | .color | .flags
  | .statedCount | .presence | .recordCount | .payloadStart => 0
  | .framing => .ether
  | .hash => ⟨0, 0, .none⟩
  | .records => []

namespace Memo

/-- The bytes that are read: none of them when nothing is bound. -/
def bytes (m : Memo) : Bytes := m.image.getD []

/-- The bytes that the layout gives a meaning to. -/
def byteSize (m : Memo) : Nat :=
  match m.image with
  | none => 0
  | some bs => sizeFor (Type2.recordCount bs)

/-- A read of the records. -/
def ofRecords {α : Type} (m : Memo) (read : List HeaderRecord → α) : Memo × α :=
  (m.records.1, read m.records.2)

/-- The index of the header at a depth; the records are read if the presence bits do not rule it
out. -/
def recordOf? (m : Memo) (id : HeaderId) (depth : Nat) : Memo × Option Nat :=
  match m.presence with
  | (m, presence) =>
    if rulesOut presence id then (m, none)
    else m.ofRecords fun records => HeaderRecord.occurrence? id records depth

/-- The range of the record that was found, if any. -/
def found (m : Memo) : Option Nat → Memo × Option Placement
  | none => (m, none)
  | some index =>
    m.ofRecords fun records => records[index]?.map fun r =>
      { offset := r.start, length := r.size, record := some index, layout := .type2 }

/-- The range of the recorded header at a depth. The payload is never recorded. -/
def header? (m : Memo) (id : HeaderId) (depth : Nat) : Memo × Option Placement :=
  if id.isPayload then (m, none)
  else
    match m.recordOf? id depth with
    | (m, index) => m.found index

/-- The record that owns an extension: the hinted one, or the header at a depth. -/
def parent? (m : Memo) (id : HeaderId) (depth : Nat) : Option Nat → Memo × Option Nat
  | some index =>
    m.ofRecords fun records => if index < records.length then some index else none
  | none => m.recordOf? id depth

/-- The range of an option of the header at a depth, or of everything after the header. -/
def extension? (m : Memo) (id ext : HeaderId) (depth : Nat) (hint : Option Nat) :
    Memo × Option Placement :=
  match m.records with
  | (m, records) =>
    match m.parent? id depth hint with
    | (m, none) => (m, none)
    | (m, some parent) =>
      if ext.isPayload then
        (m, records[parent]?.map fun r =>
          { offset := r.stop, length := Type2.captureLength m.bytes - r.stop, record := none
            layout := .type2 })
      else m.found (HeaderRecord.option? records parent ext)

/-- Reads, and remembers what had to be derived. -/
def read {α : Type} (m : Memo) : Read α → Memo × α
  | .image => (m, m.image)
  | .isBound => (m, m.image.isSome)
  | .byteSize => (m, m.byteSize)
  | .captureLength => (m, Type2.captureLength m.bytes)
  | .wireLength => (m, Type2.wireLength m.bytes)
  | .timestamp => (m, Type2.timestamp m.bytes)
  | .rxPort => (m, Type2.rxPort m.bytes)
  | .txPort => (m, Type2.txPort m.bytes)
  | .framing => (m, Type2.framing m.bytes)
  | .color => (m, Type2.color m.bytes)
  | .flags => (m, Type2.flags m.bytes)
  | .statedCount => (m, Type2.recordCount m.bytes)
  | .hash => m.hash
  | .presence => m.presence
  | .records => m.records
  | .recordCount => m.ofRecords List.length
  | .record index => m.ofRecords fun records => records[index]?
  | .options parent => m.ofRecords fun records => HeaderRecord.optionRun? records parent
  | .payloadStart => m.ofRecords fun records => (records.getLast?.map (·.stop)).getD 0
  | .header id depth => m.header? id depth
  | .extension id ext depth hint => m.extension? id ext depth hint

end Memo

/-- What is done to a descriptor. -/
inductive Action : Type 1 where
  | bind (bs : Bytes)
  | unbind
  | read {α : Type} (r : Read α)

/-- What is bound and remembered after an action. -/
def Memo.act (m : Memo) : Action → Memo
  | .bind bs => (m.bind bs).1
  | .unbind => m.unbind
  | .read r => (m.read r).1

/-- What is bound and remembered after one action after the other. -/
def Memo.run (m : Memo) (actions : List Action) : Memo := actions.foldl act m

end Type2

/-- Reads a descriptor of the layout with header records. -/
def Descriptor.read {α : Type} (d : Descriptor) : Type2.Read α → α
  | .image => d.image
  | .isBound => d.isBound
  | .byteSize => d.byteSize
  | .captureLength => d.index.captureLength
  | .wireLength => d.index.wireLength
  | .timestamp => d.index.timestamp
  | .rxPort => Type2.rxPort d.bytes
  | .txPort => Type2.txPort d.bytes
  | .framing => Type2.framing d.bytes
  | .color => Type2.color d.bytes
  | .flags => Type2.flags d.bytes
  | .statedCount => Type2.recordCount d.bytes
  | .hash => Type2.flowHash d.bytes
  | .presence => d.index.presence
  | .records => d.index.records
  | .recordCount => d.index.records.length
  | .record index => d.index.records[index]?
  | .options parent => d.index.options? parent
  | .payloadStart => d.index.payloadStart
  | .header id depth => d.index.header? id depth
  | .extension id ext depth hint => d.index.extension? id ext depth hint

/-- The descriptor after an action. Reading changes nothing, and neither does a refusal. -/
def Descriptor.act (d : Descriptor) : Type2.Action → Descriptor
  | .bind bs => (d.bind bs).toOption.getD d
  | .unbind => d.unbind
  | .read _ => d

/-- The descriptor after one action after the other. -/
def Descriptor.run (d : Descriptor) (actions : List Type2.Action) : Descriptor :=
  actions.foldl act d

end FrameIndex
