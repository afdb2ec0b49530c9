import FrameIndex.Traversal.Plan

/-!
Traversing a frame to find its headers.

Steps follow one another until one of them says that nothing more is known. Every step that goes on
moves to a larger offset (`step_advances`), so the traversal ends.
-/

namespace FrameIndex

namespace Traversal

/-- Goes on from a station to the end. -/
def run (data : Bytes) (s : Station) (t : Traversal) : Traversal :=
  match _h : t.step data s with
  | (t, none) => t
  | (t, some next) => t.run data next
  termination_by data.length - s.offset
  decreasing_by
    have := step_advances _h
    omega

/-- The traversal of a whole Ethernet frame. -/
def ofEthernet (limit : Option Nat) (data : Bytes) : Traversal :=
  (start limit data).run data ⟨.ethernet, 0⟩

end Traversal

end FrameIndex
