import FrameIndex.Capture.Error
import FrameIndex.Capture.Source

/-!
Taking items off a source through a buffer of fixed size.

The source is read in pieces, each at most as large as the buffer, and the pieces are moved into
the buffer as far as there is room. An item that is not complete yet asks for more; one that the
buffer cannot hold is refused. Every item that is taken makes what is left smaller (`size_next_lt`).
-/

namespace FrameIndex

/-- What the front of a byte string holds: an item and the shorter rest behind it, the beginning of
an item with some bytes missing, or no item at all. -/
inductive Item (α : Type) (input : Bytes) where
  | whole (value : α) (rest : Bytes) (shorter : rest.length < input.length)
  | cutOff (missing : Nat)
  | faulty (fault : ParseFault)

/-- A source, the part of its last piece that is not in the buffer yet, the buffer, and whether the
source has come to its end. -/
structure Feed where
  source : ByteSource
  pending : Bytes
  buffer : Bytes
  ended : Bool

/-- Why no item can be taken. -/
inductive FeedFault where
  | parse (fault : ParseFault)
  | refill (fault : ParseFault)

def FeedFault.toFormatFault : FeedFault → FormatFault
  | .parse fault => .parse fault
  | .refill fault => .refill fault

namespace Feed

/-- The size of the buffer, and the most that is read at once. -/
def capacity : Nat := 65536

/-- The number of bytes that are not in the buffer yet. -/
def backlog (f : Feed) : Nat := f.source.size + f.pending.length

def size (f : Feed) : Nat := f.backlog + f.buffer.length

/-- What bounds the number of refills. -/
def supply (f : Feed) : Nat := if f.ended then 0 else f.backlog + 1

/-- Moves pending bytes into the buffer as far as there is room. A source that gives no bytes has
come to its end. -/
def fill (f : Feed) : Feed :=
  let room := capacity - f.buffer.length
  let moved := f.pending.take room
  { f with
    pending := f.pending.drop room
    buffer := f.buffer ++ moved
    ended := moved.isEmpty }

/-- Reads the next piece, unless one is pending, and moves it into the buffer. -/
def refill (f : Feed) : Except ParseFault Feed :=
  if f.pending.isEmpty then
    match f.source.read capacity with
    | .error _ => .error .readFailed
    | .ok (piece, source) => .ok (fill { f with source, pending := piece })
  else .ok f.fill

/-- The feed that has read one piece of a source into its buffer. -/
def start (source : ByteSource) : Except String Feed :=
  match source.read capacity with
  | .error text => .error text
  | .ok (piece, source) => .ok { source, pending := [], buffer := piece, ended := false }

theorem backlog_fill (f : Feed) :
    f.fill.backlog + (f.pending.take (capacity - f.buffer.length)).length = f.backlog := by
  simp only [fill, backlog, List.length_drop, List.length_take]
  omega

theorem size_fill (f : Feed) : f.fill.size = f.size := by
  have := f.backlog_fill
  simp only [size] at *
  simp only [fill, List.length_append] at *
  omega

theorem supply_fill_le (f : Feed) : f.fill.supply ≤ f.backlog := by
  have h := f.backlog_fill
  unfold supply
  split
  · exact Nat.zero_le _
  · rename_i he
    have : 0 < (f.pending.take (capacity - f.buffer.length)).length := by
      apply List.length_pos_iff.2
      simpa [fill] using he
    omega

theorem of_refill {f g : Feed} (h : f.refill = .ok g) :
    g.supply ≤ f.backlog ∧ g.size = f.size := by
  unfold refill at h
  split at h
  · rename_i hp
    split at h
    · cases h
    · rename_i piece source hr
      cases h
      have hs := ByteSource.size_read hr
      have hp : f.pending = [] := List.isEmpty_iff.1 hp
      refine ⟨Nat.le_trans (supply_fill_le _) ?_, (size_fill _).trans ?_⟩
      · simp only [backlog, hp, List.length_nil]
        omega
      · simp only [size, backlog, hp, List.length_nil]
        omega
  · cases h
    exact ⟨f.supply_fill_le, f.size_fill⟩

theorem supply_refill_lt {f g : Feed} (he : f.ended = false) (h : f.refill = .ok g) :
    g.supply < f.supply := by
  have := (of_refill h).1
  simp only [supply, he, Bool.false_eq_true, if_false]
  simp only [supply] at this
  omega

/-- Takes the next item, refilling the buffer while it is incomplete. There is none at the end of
the source. A fault takes nothing. -/
def next {α : Type} (parse : (input : Bytes) → Item α input) (f : Feed) :
    Feed × Except FeedFault (Option α) :=
  if f.buffer.isEmpty && f.ended then (f, .ok none)
  else
    match parse f.buffer with
    | .whole value rest _ => ({ f with buffer := rest }, .ok (some value))
    | .faulty fault => (f, .error (.parse fault))
    | .cutOff missing =>
      if _he : f.ended = true then (f, .error (.parse .unexpectedEnd))
      else if capacity ≤ f.buffer.length + missing then (f, .error (.parse .bufferTooSmall))
      else
        match _h : f.refill with
        | .error fault => (f, .error (.refill fault))
        | .ok g => next parse g
  termination_by f.supply
  decreasing_by exact supply_refill_lt (Bool.eq_false_iff.2 _he) _h

/-- Taking an item makes what is left smaller. -/
theorem size_next_lt {α : Type} {parse : (input : Bytes) → Item α input} {f g : Feed} {value : α}
    (h : f.next parse = (g, .ok (some value))) : g.size < f.size := by
  fun_induction next parse f with
  | case1 => simp at h
  | case2 f _ v rest shorter =>
    simp only [Prod.mk.injEq, Except.ok.injEq, Option.some.injEq] at h
    obtain ⟨rfl, -⟩ := h
    simp only [size, backlog]
    omega
  | case3 => simp at h
  | case4 => simp at h
  | case5 => simp at h
  | case6 => simp at h
  | case7 f _ _ _ _ _ k hr ih => exact (of_refill hr).2 ▸ ih h

end Feed

end FrameIndex
