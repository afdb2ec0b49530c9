/-!
Timestamps: the units of a descriptor's timestamp, and the date and time of day that a number of
nanoseconds since the epoch falls on.
-/

namespace FrameIndex

inductive ClockUnit where
  | micros
  | nanos
  deriving DecidableEq

namespace ClockUnit

/-- The nanoseconds of a timestamp, as far as they fit in 64 bits. -/
def toNanos? (unit : ClockUnit) (raw : Nat) : Option Nat :=
  match unit with
  | .micros => if raw * 1000 < UInt64.size then some (raw * 1000) else none
  | .nanos => some raw

/-- The timestamp of a number of nanoseconds, rounded down. -/
def ofNanos (unit : ClockUnit) (nanos : Nat) : Nat :=
  match unit with
  | .micros => nanos / 1000
  | .nanos => nanos

end ClockUnit

/-- A day of the Gregorian calendar. -/
structure CivilDate where
  year : Nat
  month : Nat
  day : Nat
  deriving DecidableEq

namespace CivilDate

/-- The date a number of days after 1 January 1970. Years are counted from March, so that the leap
day ends a year, in eras of 400 years, which have 146097 days each. -/
def ofDays (days : Nat) : CivilDate :=
  let shifted := days + 719468
  let era := shifted / 146097
  let dayOfEra := shifted % 146097
  let yearOfEra := (dayOfEra - dayOfEra / 1460 + dayOfEra / 36524 - dayOfEra / 146096) / 365
  let dayOfYear := dayOfEra - (365 * yearOfEra + yearOfEra / 4 - yearOfEra / 100)
  let monthFromMarch := (5 * dayOfYear + 2) / 153
  let month := if monthFromMarch < 10 then monthFromMarch + 3 else monthFromMarch - 9
  { year := yearOfEra + era * 400 + (if month ≤ 2 then 1 else 0)
    month
    day := dayOfYear - (153 * monthFromMarch + 2) / 5 + 1 }

end CivilDate

namespace Rfc3339

/-- A number with leading zeros up to a width. -/
def padded (width n : Nat) : String :=
  let digits := Nat.toDigits 10 n
  String.ofList (List.replicate (width - digits.length) '0' ++ digits)

/-- The fraction of a second in 0, 3, 6 or 9 digits: the fewest that are exact. -/
def fraction (nanos : Nat) : String :=
  if nanos = 0 then ""
  else if nanos % 1000000 = 0 then "." ++ padded 3 (nanos / 1000000)
  else if nanos % 1000 = 0 then "." ++ padded 6 (nanos / 1000)
  else "." ++ padded 9 nanos

/-- The text of a time in nanoseconds since the epoch, as in `2023-11-14T22:13:20+00:00`. -/
def format (nanos : Nat) : String :=
  let seconds := nanos / 1000000000
  let date := CivilDate.ofDays (seconds / 86400)
  let time := seconds % 86400
  s!"{padded 4 date.year}-{padded 2 date.month}-{padded 2 date.day}T" ++
    s!"{padded 2 (time / 3600)}:{padded 2 (time / 60 % 60)}:{padded 2 (time % 60)}" ++
    fraction (nanos % 1000000000) ++ "+00:00"

end Rfc3339

end FrameIndex
