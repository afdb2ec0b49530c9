import FrameIndex.Bytes

/-!
Timestamps of a capture in blocks: ticks of a clock with a stated resolution, and an offset in
seconds.
-/

namespace FrameIndex

namespace Ticks

/-- The ticks in a second. The low seven bits of a resolution are an exponent of 2 if its high bit
is set, and of 10 otherwise. A number of ticks that does not fit in 128 bits is not supported. -/
def perSecond? (resolution : Nat) : Option Nat :=
  let exponent := resolution % 128
  let unit := if resolution / 128 % 2 = 1 then Nat.pow 2 exponent else Nat.pow 10 exponent
  if unit < Bytes.limit 16 then some unit else none

/-- The first number that does not fit in 64 bits with a sign. -/
def bound : Nat := Bytes.limit 8 / 2

/-- The microseconds in a number of ticks, rounded down, if they fit in 64 bits with a sign. -/
def toMicros? (ticks resolution : Nat) : Option Nat :=
  (perSecond? resolution).bind fun unit =>
    let micros := ticks * 1000000 / unit
    if micros < bound then some micros else none

/-- The nearest number that fits in 64 bits with a sign. -/
def saturate (n : Int) : Int :=
  if n < -(bound : Int) then -(bound : Int)
  else if (bound : Int) ≤ n then (bound : Int) - 1
  else n

/-- The number that 64 bits stand for with a sign. -/
def signed (n : Nat) : Int := if n < bound then n else (n : Int) - (2 * bound : Nat)

/-- The time in microseconds of a clock that is a number of seconds behind. -/
def shifted (micros : Nat) (seconds : Int) : Int :=
  saturate (micros + saturate (seconds * 1000000))

end Ticks

end FrameIndex
