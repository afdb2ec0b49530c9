import FrameIndex.Capture.Reader
import FrameIndex.Proofs.Fields

/-!
# How records and blocks lie in a capture

A record or block that is read is the front of the input, as long as it says it is
(`ClassicRecord.of_read`, `CaptureBlock.of_read`), and what is read of it lies at fixed places
(`CaptureBlock.means_of_ofBody`). The data of an enhanced packet is read with the bytes that fill it
up to a multiple of four.
-/

namespace FrameIndex

/-! ## Records -/

theorem ClassicHeader.of_read {bs : Bytes} {header : ClassicHeader} (h : read bs = .ok header) :
    length ≤ bs.length ∧ ofMagic? (bs.take 4) = some (header.order, header.nanoseconds) := by
  unfold read at h
  split at h
  · cases h
  · rename_i hends
    have hlast := List.find?_eq_none.1 hends length (by decide)
    split at h
    · cases h
    · rename_i hmagic
      cases h
      exact ⟨by simpa using hlast, hmagic⟩

/-- A whole record of a classic capture: a header, and as many bytes as it states. -/
def ClassicRecord.IsWhole (order : ByteOrder) (bs : Bytes) : Prop :=
  bs.length = headerLength + bs.num order 8 4

theorem ClassicRecord.of_read {order : ByteOrder} {input rest : Bytes} {record : ClassicRecord}
    {shorter : rest.length < input.length} (h : read order input = .whole record rest shorter) :
    ∃ bs, input = bs ++ rest ∧ IsWhole order bs ∧ record.captured = bs.num order 8 4 ∧
      record.data = bs.slice headerLength record.captured := by
  unfold read at h
  simp only at h
  split at h
  · cases h
  · rename_i hheader
    split at h
    · cases h
    · rename_i hlength
      cases h
      have hcaptured : Bytes.num order (input.take (headerLength + input.num order 8 4)) 8 4 =
          input.num order 8 4 :=
        Bytes.num_take (by simp only [headerLength]; omega)
      refine ⟨_, (List.take_append_drop (headerLength + input.num order 8 4) input).symm, ?_,
        hcaptured.symm, (Bytes.slice_take (Nat.le_refl _)).symm⟩
      rw [IsWhole, hcaptured, List.length_take]
      omega

/-! ## Blocks -/

namespace CaptureBlock

/-- A whole block of a kind, as long as it says it is. A section header says in which byte order it
and the blocks behind it are written; other blocks are in the order of their section. -/
structure IsWhole (before order : ByteOrder) (kind : BlockKind) (bs : Bytes) : Prop where
  type_eq : BlockKind.ofType (bs.num before 0 4) = kind
  marked : kind = .section → markedOrder? bs = some order
  kept : kind ≠ .section → order = before
  length_eq : bs.num order 4 4 = bs.length
  minLength_le : kind.minLength ≤ bs.length

def body (bs : Bytes) : Bytes := bs.slice 8 (bs.length - 12)

def Means (order : ByteOrder) (kind : BlockKind) (body : Bytes) : CaptureBlock → Prop
  | .section o => kind = .section ∧ o = order
  | .interface _ => kind = .interface
  | .enhanced p => kind = .enhanced ∧ p.captured = body.num order 12 4 ∧
      20 + align p.captured ≤ body.length ∧ p.data = body.slice 20 (align p.captured)
  | .simple _ data => kind = .simple ∧ data = body.drop 4
  | .other => kind ≠ .section ∧ kind ≠ .enhanced ∧ kind ≠ .simple

theorem takeFilled_eq_ok {bs place data : Bytes} {length : Nat}
    (h : takeFilled bs length place = .ok data) :
    align length ≤ bs.length ∧ data = bs.take (align length) := by
  unfold takeFilled at h
  split at h
  · cases h
  · split at h
    · cases h
    · cases h
      exact ⟨by omega, rfl⟩

theorem closed_eq_ok {length trailer : Nat} {rest : Bytes} {b block : CaptureBlock}
    (h : closed length trailer rest b = .ok block) : b = block := by
  unfold closed at h
  split at h
  · exact Except.ok.inj h
  · cases h

theorem means_of_ofBody {order : ByteOrder} {kind : BlockKind} {length trailer : Nat} {body : Bytes}
    {block : CaptureBlock} (hbody : kind = .enhanced → 20 ≤ body.length)
    (h : ofBody order kind length trailer body = .ok block) : Means order kind body block := by
  cases kind with
  | «section» =>
    cases h
    exact ⟨rfl, rfl⟩
  | interface => exact closed_eq_ok h ▸ rfl
  | simple =>
    cases h
    exact ⟨rfl, rfl⟩
  | names =>
    simp only [ofBody] at h
    split at h
    · exact closed_eq_ok h ▸ ⟨nofun, nofun, nofun⟩
    · cases h
  | statistics => exact closed_eq_ok h ▸ ⟨nofun, nofun, nofun⟩
  | enhanced =>
    simp only [ofBody] at h
    cases hdata : takeFilled (body.drop 20) (body.num order 12 4) body with
    | error fault => simp [hdata, bind, Except.bind] at h
    | ok data =>
      rw [hdata] at h
      obtain ⟨hle, rfl⟩ := takeFilled_eq_ok hdata
      rw [List.length_drop] at hle
      have := hbody rfl
      rw [← closed_eq_ok h]
      exact ⟨rfl, rfl, by show 20 + align (body.num order 12 4) ≤ _; omega, rfl⟩
  | secrets =>
    simp only [ofBody] at h
    cases hdata : takeFilled (body.drop 8) (body.num order 4 4) (body.drop 8) with
    | error fault => simp [hdata, bind, Except.bind] at h
    | ok data =>
      rw [hdata] at h
      exact closed_eq_ok h ▸ ⟨nofun, nofun, nofun⟩
  | custom => exact closed_eq_ok h ▸ ⟨nofun, nofun, nofun⟩
  | unknown =>
    cases h
    exact ⟨nofun, nofun, nofun⟩

theorem length_body {bs : Bytes} (h : 12 ≤ bs.length) : (body bs).length = bs.length - 12 := by
  rw [body, Bytes.length_slice]
  omega

theorem of_readBody {order : ByteOrder} {kind : BlockKind} {input rest : Bytes}
    {block : CaptureBlock} {shorter : rest.length < input.length}
    (h : readBody order kind input = .whole block rest shorter) :
    ∃ n, n = input.num order 4 4 ∧ kind.minLength ≤ n ∧ n ≤ input.length ∧ rest = input.drop n ∧
      Means order kind (body (input.take n)) block := by
  unfold readBody at h
  simp only at h
  split at h
  · cases h
  · split at h
    · cases h
    · rename_i hmin
      split at h
      · cases h
      · split at h
        · cases h
        · rename_i hlen
          split at h
          · cases h
          · cases h
          · rename_i hbody
            cases h
            have htake : (input.take (input.num order 4 4)).length = input.num order 4 4 := by
              rw [List.length_take]
              omega
            have hmin12 := kind.le_minLength
            have heq : body (input.take (input.num order 4 4)) =
                input.slice 8 (input.num order 4 4 - 12) := by
              rw [body, htake]
              exact Bytes.slice_take (by omega)
            refine ⟨_, rfl, by omega, by omega, rfl, ?_⟩
            rw [heq]
            refine means_of_ofBody (fun hkind => ?_) hbody
            have : kind.minLength = 32 := hkind ▸ rfl
            rw [Bytes.length_slice]
            omega

theorem markedOrder?_take {input : Bytes} {n : Nat} (h : 12 ≤ n) :
    markedOrder? (input.take n) = markedOrder? input := by
  have hle : Bytes.le (input.take n) 8 4 = input.le 8 4 := @Bytes.num_take .little input n 8 4 h
  have hbe : Bytes.be (input.take n) 8 4 = input.be 8 4 := @Bytes.num_take .big input n 8 4 h
  rw [markedOrder?, hle, hbe, markedOrder?]

theorem of_read {before : ByteOrder} {input rest : Bytes} {block : CaptureBlock}
    {shorter : rest.length < input.length} (h : read before input = .whole block rest shorter) :
    ∃ order kind bs, input = bs ++ rest ∧ IsWhole before order kind bs ∧
      Means order kind (body bs) block := by
  -- the block's kind, and the byte order that it is written in
  obtain ⟨order, hmarked, hkept, h⟩ : ∃ order,
      (BlockKind.ofType (input.num before 0 4) = .section → markedOrder? input = some order) ∧
      (BlockKind.ofType (input.num before 0 4) ≠ .section → order = before) ∧
      readBody order (BlockKind.ofType (input.num before 0 4)) input =
        .whole block rest shorter := by
    unfold read at h
    split at h
    · cases h
    · split at h
      · rename_i hsection
        rw [hsection]
        unfold readSection at h
        split at h
        · cases h
        · split at h
          · rename_i order hmarked
            exact ⟨order, fun _ => hmarked, fun hne => absurd rfl hne, h⟩
          · cases h
      · rename_i hne
        exact ⟨before, fun hsection => absurd hsection (hne ·), fun _ => rfl, h⟩
  obtain ⟨n, hn, hmin, hle, hrest, hmeans⟩ := of_readBody h
  have hmin12 := (BlockKind.ofType (input.num before 0 4)).le_minLength
  have hlen : (input.take n).length = n := by
    rw [List.length_take]
    omega
  refine ⟨order, _, input.take n, by rw [hrest, List.take_append_drop], ?_, hmeans⟩
  constructor
  case type_eq => rw [Bytes.num_take (by omega)]
  case marked => exact fun hsection => (markedOrder?_take (by omega)).trans (hmarked hsection)
  case kept => exact hkept
  case length_eq => rw [Bytes.num_take (by omega), hlen, hn]
  case minLength_le => rw [hlen]; exact hmin

end CaptureBlock

end FrameIndex
