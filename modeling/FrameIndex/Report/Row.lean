import FrameIndex.Layout

/-!
What is reported of a frame.
-/

namespace FrameIndex

/-- A header of a frame, by name. -/
structure NamedHeader where
  name : String
  offset : Nat
  length : Nat
  deriving DecidableEq

/-- An occurrence of a header that was asked for. -/
structure HeaderMatch where
  depth : Nat
  offset : Nat
  length : Nat
  /-- The first bytes of the header in hexadecimal. -/
  preview : String
  deriving DecidableEq

/-- Which fragment of which datagram a frame carries. -/
structure FragmentNote where
  identification : Nat
  offset : Nat
  more : Bool
  deriving DecidableEq

structure ByteRange where
  offset : Nat
  length : Nat
  deriving DecidableEq

/-- Everything that is reported of a frame. -/
structure ReportRow where
  frame : Nat
  timestamp : Option String := none
  layout : Layout := .type2
  captureLength : Nat := 0
  wireLength : Nat := 0
  headers : List NamedHeader := []
  payload : Option ByteRange := none
  fragment : Option FragmentNote := none
  selected : List HeaderMatch := []
  deriving DecidableEq

end FrameIndex
