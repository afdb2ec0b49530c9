import FrameIndex.Frame
import FrameIndex.Capture.Feed

/-!
The classic capture format: a header of 24 bytes, then records of a 16-byte header and data.

The magic number at the front tells the byte order and the unit of the fraction of a second.
-/

namespace FrameIndex

/-- What the header of a classic capture says. -/
structure ClassicHeader where
  order : ByteOrder
  nanoseconds : Bool
  linkType : Nat
  deriving DecidableEq

namespace ClassicHeader

def length : Nat := 24

/-- The byte order and the unit that a magic number tells: nanoseconds or not. -/
def ofMagic? : Bytes → Option (ByteOrder × Bool)
  | [0xd4, 0xc3, 0xb2, 0xa1] => some (.little, false)
  | [0xa1, 0xb2, 0xc3, 0xd4] => some (.big, false)
  | [0x4d, 0x3c, 0xb2, 0xa1] => some (.little, true)
  | [0xa1, 0xb2, 0x3c, 0x4d] => some (.big, true)
  | _ => none

def fieldEnds : List Nat := [4, 6, 8, 12, 16, 20, 24]

/-- The header at the front. What is missing is counted to the end of the first field that is not
complete. -/
def read (bs : Bytes) : Except ParseFault ClassicHeader :=
  match fieldEnds.find? (bs.length < ·) with
  | some stop => .error (.incomplete (stop - bs.length))
  | none =>
    match ofMagic? (bs.take 4) with
    | none => .error .unknownByteOrder
    | some (order, nanoseconds) =>
      .ok { order, nanoseconds, linkType := bs.num order 20 4 % 65536 }

end ClassicHeader

structure ClassicRecord where
  seconds : Nat
  fraction : Nat
  captured : Nat
  onWire : Nat
  data : Bytes
  deriving DecidableEq

namespace ClassicRecord

def headerLength : Nat := 16

def read (order : ByteOrder) (input : Bytes) : Item ClassicRecord input :=
  let captured := input.num order 8 4
  let length := headerLength + captured
  if input.length < headerLength then .cutOff (headerLength - input.length)
  else if _h : input.length < length then .cutOff (length - input.length)
  else
    .whole
      { seconds := input.num order 0 4
        fraction := input.num order 4 4
        captured
        onWire := input.num order 12 4
        data := input.slice headerLength captured }
      (input.drop length)
      (by
        simp only [List.length_drop, length, headerLength] at *
        omega)

/-- The frame of a record, under a header and with its place in the capture. -/
def toFrame (r : ClassicRecord) (header : ClassicHeader) (number : Nat) : Frame where
  number
  timestamp := r.seconds * 1000000 + (if header.nanoseconds then r.fraction / 1000 else r.fraction)
  captured := r.captured
  onWire := r.onWire
  linkType := header.linkType
  data := r.data

end ClassicRecord

end FrameIndex
