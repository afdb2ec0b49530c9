import FrameIndex.Record

/-!
Finding records in a list: the n-th occurrence of a header, and the run of option records that
belongs to a header because it follows it without a gap.
-/

namespace FrameIndex

/-- A run of option records, and the frame bytes from the first to the end of the last. -/
structure OptionRun where
  first : Nat
  count : Nat
  offset : Nat
  length : Nat
  deriving DecidableEq

namespace OptionRun

/-- The first byte after the options. -/
def stop (run : OptionRun) : Nat := run.offset + run.length

/-- The index after the last record of the run. -/
def last (run : OptionRun) : Nat := run.first + run.count

end OptionRun

namespace HeaderRecord

/-- The index of the record that has exactly `depth` records of the same header before it. -/
def occurrence? (id : HeaderId) : List HeaderRecord → Nat → Option Nat
  | [], _ => none
  | r :: rest, depth =>
    if r.id.agrees id then
      match depth with
      | 0 => some 0
      | depth + 1 => (occurrence? id rest depth).map (· + 1)
    else (occurrence? id rest depth).map (· + 1)

/-- The option records that follow a position without a gap. -/
def optionsAfter (records : List HeaderRecord) (parent : Nat) : List HeaderRecord :=
  (records.drop (parent + 1)).takeWhile (·.id.isOption)

/-- The run of the option records that follow a position, if there are any. -/
def optionRun? (records : List HeaderRecord) (parent : Nat) : Option OptionRun :=
  match optionsAfter records parent with
  | [] => none
  | head :: tail =>
    some {
      first := parent + 1
      count := tail.length + 1
      offset := head.start
      length := (tail.getLastD head).stop - head.start }

/-- The index of the first record for an option among those that follow a position. -/
def option? (records : List HeaderRecord) (parent : Nat) (ext : HeaderId) : Option Nat :=
  ((optionsAfter records parent).findIdx? (·.id.agrees ext)).map (parent + 1 + ·)

end HeaderRecord

end FrameIndex
