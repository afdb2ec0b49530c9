import FrameIndex.Bytes

/-!
Byte sources that are read piece by piece, and may fail.
-/

namespace FrameIndex

/-- What the reads of a source return, one after another. When they are used up, every further read
returns nothing, or fails with a text. -/
structure ByteSource where
  pieces : List Bytes
  failure : Option String := none

namespace ByteSource

def size (s : ByteSource) : Nat := s.pieces.flatten.length

/-- Reads at most `max` bytes. What a piece holds beyond that is left for the next read. -/
def read (max : Nat) (s : ByteSource) : Except String (Bytes × ByteSource) :=
  match s.pieces with
  | [] =>
    match s.failure with
    | some text => .error text
    | none => .ok ([], s)
  | piece :: rest =>
    let left := piece.drop max
    .ok (piece.take max, { s with pieces := if left.isEmpty then rest else left :: rest })

/-- Cuts a byte string into pieces of a size, the last of which may be shorter. -/
def cut (size : Nat) (bs : Bytes) : List Bytes :=
  if _h : bs = [] ∨ size = 0 then []
  else bs.take size :: cut size (bs.drop size)
  termination_by bs.length
  decreasing_by
    have : 0 < bs.length := List.length_pos_iff.2 fun hb => _h (.inl hb)
    simp only [List.length_drop]
    omega

/-- The pieces up to the first that brings the number of bytes read to `bound`, and whether there
is one. -/
def upTo (bound : Nat) : List Bytes → List Bytes × Bool
  | [] => ([], bound == 0)
  | piece :: rest =>
    if bound = 0 then ([], true)
    else
      let (pieces, reached) := upTo (bound - piece.length) rest
      (piece :: pieces, reached)

/-- The source that hands out at most `piece` bytes of a byte string a read, and fails with a text
once it has handed out a number of bytes. -/
def ofBytes (bs : Bytes) (piece : Nat) (failure : Option (Nat × String)) : ByteSource :=
  match failure with
  | none => { pieces := cut piece bs }
  | some (bound, text) =>
    let (pieces, reached) := upTo bound (cut piece bs)
    { pieces, failure := if reached then some text else none }

theorem size_read {max : Nat} {s s' : ByteSource} {bs : Bytes}
    (h : s.read max = .ok (bs, s')) : s'.size + bs.length = s.size := by
  obtain ⟨pieces, failure⟩ := s
  unfold read at h
  cases pieces with
  | nil =>
    cases failure with
    | none =>
      cases h
      rfl
    | some text => cases h
  | cons piece rest =>
    simp only [Except.ok.injEq, Prod.mk.injEq] at h
    obtain ⟨rfl, rfl⟩ := h
    simp only [size, List.flatten_cons, List.length_append, List.length_take]
    by_cases hl : piece.length ≤ max
    · simp only [List.drop_eq_nil_of_le hl, List.isEmpty_nil, if_true]
      omega
    · have hne : (piece.drop max).isEmpty = false := by
        simp only [List.isEmpty_eq_false_iff, ne_eq, List.drop_eq_nil_iff]
        exact hl
      simp only [hne, Bool.false_eq_true, if_false, List.flatten_cons, List.length_append,
        List.length_drop]
      omega

end ByteSource

end FrameIndex
