import FrameIndex.Bytes

/-!
A frame as a capture holds it.
-/

namespace FrameIndex

/-- The bytes of a frame with its number, time, lengths and link type. -/
structure Frame where
  /-- The frame's place in the capture, counted from 1. -/
  number : Nat
  /-- Microseconds since the epoch. -/
  timestamp : Int
  /-- The number of bytes captured. -/
  captured : Nat
  /-- The number of bytes on the wire. -/
  onWire : Nat
  linkType : Nat
  data : Bytes
  deriving DecidableEq

namespace Frame

def ethernetLink : Nat := 1

/-- Whether fewer bytes were captured than were on the wire. -/
def isTruncated (f : Frame) : Bool := f.captured < f.onWire

end Frame

end FrameIndex
