import FrameIndex.Capture.Feed

/-!
# What a feed has not handed out yet

The bytes that are left in a feed are those in its buffer, then the pending ones, then those of the
source (`Feed.unread`). Refilling moves bytes but keeps this order, so an item that is taken is one
that stands at the front of the bytes that are left (`Feed.of_next_some`), and nothing is lost when
none is taken (`Feed.unread_next`).
-/

namespace FrameIndex

def ByteSource.bytes (s : ByteSource) : Bytes := s.pieces.flatten

theorem ByteSource.bytes_of_read {max : Nat} {s s' : ByteSource} {piece : Bytes}
    (h : s.read max = .ok (piece, s')) : s.bytes = piece ++ s'.bytes := by
  obtain ⟨pieces, failure⟩ := s
  unfold read at h
  cases pieces with
  | nil =>
    cases failure with
    | none =>
      cases h
      rfl
    | some text => cases h
  | cons first rest =>
    simp only [Except.ok.injEq, Prod.mk.injEq] at h
    obtain ⟨rfl, rfl⟩ := h
    have hsplit : first.take max ++ first.drop max = first := List.take_append_drop _ _
    by_cases hleft : first.drop max = []
    · rw [hleft, List.append_nil] at hsplit
      simp [bytes, hleft, hsplit]
    · have hempty : (first.drop max).isEmpty = false := List.isEmpty_eq_false_iff.2 hleft
      rw [hempty, if_neg Bool.false_ne_true]
      show first ++ rest.flatten = first.take max ++ (first.drop max ++ rest.flatten)
      rw [← List.append_assoc, hsplit]

namespace Feed

def unread (f : Feed) : Bytes := f.buffer ++ (f.pending ++ f.source.bytes)

theorem unread_fill (f : Feed) : f.fill.unread = f.unread := by
  show f.buffer ++ f.pending.take _ ++ (f.pending.drop _ ++ f.source.bytes) = f.unread
  rw [List.append_assoc, ← List.append_assoc (f.pending.take _), List.take_append_drop, unread]

theorem unread_refill {f g : Feed} (h : f.refill = .ok g) : g.unread = f.unread := by
  unfold refill at h
  by_cases hpending : f.pending.isEmpty = true
  · rw [if_pos hpending] at h
    split at h
    · cases h
    · rename_i piece source hread
      cases h
      rw [unread_fill]
      show f.buffer ++ (piece ++ source.bytes) = f.unread
      rw [unread, List.isEmpty_iff.1 hpending, List.nil_append, ByteSource.bytes_of_read hread]
  · rw [if_neg hpending] at h
    cases h
    exact f.unread_fill

theorem unread_start {source : ByteSource} {f : Feed} (h : start source = .ok f) :
    f.unread = source.bytes := by
  unfold start at h
  split at h
  · cases h
  · rename_i piece source' hread
    cases h
    exact (ByteSource.bytes_of_read hread).symm

variable {α : Type} {parse : (input : Bytes) → Item α input} {f g : Feed}

theorem of_next_some {value : α} (h : f.next parse = (g, .ok (some value))) :
    ∃ input rest shorter behind, parse input = .whole value rest shorter ∧
      f.unread = input ++ behind ∧ g.unread = rest ++ behind := by
  fun_induction next parse f with
  | case1 => simp at h
  | case2 f _ v rest shorter hparse =>
    simp only [Prod.mk.injEq, Except.ok.injEq, Option.some.injEq] at h
    obtain ⟨rfl, rfl⟩ := h
    exact ⟨f.buffer, rest, shorter, _, hparse, rfl, rfl⟩
  | case3 => simp at h
  | case4 => simp at h
  | case5 => simp at h
  | case6 => simp at h
  | case7 f _ _ _ _ _ k hrefill ih => exact unread_refill hrefill ▸ ih h

theorem unread_next {result : Except FeedFault (Option α)} (h : f.next parse = (g, result))
    (hnone : ∀ value, result ≠ .ok (some value)) : g.unread = f.unread := by
  fun_induction next parse f with
  | case1 => cases h; rfl
  | case2 f _ v rest shorter hparse =>
    cases h
    exact absurd rfl (hnone v)
  | case3 => cases h; rfl
  | case4 => cases h; rfl
  | case5 => cases h; rfl
  | case6 => cases h; rfl
  | case7 f _ _ _ _ _ k hrefill ih => exact (ih h).trans (unread_refill hrefill)

theorem next_again {result : Except FeedFault (Option α)} (h : f.next parse = (g, result))
    (hnone : ∀ value, result ≠ .ok (some value)) : g.next parse = (g, result) := by
  fun_induction next parse f with
  | case1 f hempty =>
    cases h
    rw [next, if_pos hempty]
  | case2 f _ value rest shorter hparse =>
    cases h
    exact absurd rfl (hnone value)
  | case3 f hempty fault hparse =>
    cases h
    rw [next, if_neg hempty, hparse]
  | case4 f hempty missing hparse hended =>
    cases h
    rw [next, if_neg hempty, hparse]
    exact dif_pos hended
  | case5 f hempty missing hparse hended hlarge =>
    cases h
    rw [next, if_neg hempty, hparse]
    exact (dif_neg hended).trans (if_pos hlarge)
  | case6 f hempty missing hparse hended hlarge fault hrefill =>
    cases h
    rw [next, if_neg hempty, hparse]
    refine (dif_neg hended).trans ((if_neg hlarge).trans ?_)
    split
    · rename_i hfault
      rw [hrefill] at hfault
      cases hfault
      rfl
    · rename_i hfeed
      rw [hrefill] at hfeed
      cases hfeed
  | case7 f _ _ _ _ _ k hrefill ih => exact ih h

end Feed

end FrameIndex
