import FrameIndex.Proofs.Capture.Layout
import FrameIndex.Proofs.Capture.Settled
import Mathlib.Tactic.SplitIfs

/-!
# Headers, records and blocks with more bytes behind them

What is read at the front of some bytes stays what it is when more bytes follow, be it a header
(`ClassicHeader.read_append`), a record (`ClassicRecord.stable`) or a block (`CaptureBlock.stable`).
A fault about a length quotes what follows the length, and so quotes more.
-/

namespace FrameIndex

open Feed (Stable capacity)

/-! ## Classic captures -/

theorem ClassicHeader.read_eq_ok {bs : Bytes} {order : ByteOrder} {nanoseconds : Bool}
    (hlen : length ≤ bs.length) (hmagic : ofMagic? (bs.take 4) = some (order, nanoseconds)) :
    read bs = .ok ⟨order, nanoseconds, bs.num order 20 4 % 65536⟩ := by
  have hends : fieldEnds.find? (bs.length < ·) = none := by
    simp only [List.find?_eq_none, fieldEnds, length] at *
    simp
    omega
  rw [read, hends, hmagic]

theorem ClassicHeader.read_append {bs : Bytes} {header : ClassicHeader} (more : Bytes)
    (h : read bs = .ok header) : read (bs ++ more) = .ok header := by
  obtain ⟨hlen, hmagic⟩ := of_read h
  have hlen4 : 24 ≤ bs.length := hlen
  rw [read_eq_ok hlen hmagic] at h
  rw [← h, ← Bytes.num_append_left (b := more) (by omega)]
  refine read_eq_ok ?_ ?_
  · rw [List.length_append]
    omega
  · rw [List.take_append_of_le_length (by omega)]
    exact hmagic

namespace ClassicRecord

variable {order : ByteOrder} {input : Bytes}

theorem read_of_lt_header (h : input.length < headerLength) :
    read order input = .cutOff (headerLength - input.length) := by
  simp only [read, if_pos h]

theorem read_of_lt (hheader : headerLength ≤ input.length)
    (h : input.length < headerLength + input.num order 8 4) :
    read order input = .cutOff (headerLength + input.num order 8 4 - input.length) := by
  simp only [read, if_neg (Nat.not_lt_of_le hheader), dif_pos h]

theorem read_of_le (h : headerLength + input.num order 8 4 ≤ input.length) :
    ∃ shorter, read order input = .whole
      ⟨input.num order 0 4, input.num order 4 4, input.num order 8 4, input.num order 12 4,
        input.slice headerLength (input.num order 8 4)⟩
      (input.drop (headerLength + input.num order 8 4)) shorter := by
  refine ⟨?_, ?_⟩
  · simp only [List.length_drop, headerLength] at *
    omega
  · simp only [read, if_neg (Nat.not_lt_of_le (Nat.le_of_add_right_le h)),
      dif_neg (Nat.not_lt_of_le h)]

theorem read_append_of_le (more : Bytes) (h : headerLength + input.num order 8 4 ≤ input.length) :
    ∃ shorter, read order (input ++ more) = .whole
      ⟨input.num order 0 4, input.num order 4 4, input.num order 8 4, input.num order 12 4,
        input.slice headerLength (input.num order 8 4)⟩
      (input.drop (headerLength + input.num order 8 4) ++ more) shorter := by
  have hlen : 16 ≤ input.length := Nat.le_of_add_right_le h
  have hcaptured : (input ++ more).num order 8 4 = input.num order 8 4 :=
    Bytes.num_append_left (by omega)
  have hread := @read_of_le order (input ++ more) (by
    rw [hcaptured, List.length_append]
    omega)
  rwa [hcaptured, Bytes.num_append_left (by omega), Bytes.num_append_left (by omega),
    Bytes.num_append_left (by omega), Bytes.slice_append_left h,
    List.drop_append_of_le_length h] at hread

theorem stable (order : ByteOrder) : Stable (read order) (IsWhole order) where
  whole {input rest record shorter} more h := by
    by_cases hwhole : headerLength + input.num order 8 4 ≤ input.length
    · obtain ⟨_, hread⟩ := read_of_le hwhole
      rw [hread] at h
      cases h
      exact read_append_of_le more hwhole
    · by_cases hheader : headerLength ≤ input.length
      · rw [read_of_lt hheader (Nat.lt_of_not_le hwhole)] at h
        cases h
      · rw [read_of_lt_header (Nat.lt_of_not_le hheader)] at h
        cases h
  faulty {input fault} more h := by
    unfold read at h
    simp only at h
    split at h
    · cases h
    · split at h <;> cases h
  cutOff {input missing} more h hlarge hmore := by
    rw [List.length_append] at hmore ⊢
    by_cases hheader : headerLength ≤ input.length
    · have hcaptured : (input ++ more).num order 8 4 = input.num order 8 4 :=
        Bytes.num_append_left (by simp only [headerLength] at hheader; omega)
      by_cases hwhole : headerLength + input.num order 8 4 ≤ input.length
      · obtain ⟨_, hread⟩ := read_of_le hwhole
        rw [hread] at h
        cases h
      · rw [read_of_lt hheader (Nat.lt_of_not_le hwhole)] at h
        cases h
        by_cases hshort : input.length + more.length < headerLength + input.num order 8 4
        · refine .inr ⟨_, read_of_lt ?_ ?_, ?_⟩
          · rw [List.length_append]
            omega
          · rwa [hcaptured, List.length_append]
          · rw [hcaptured, List.length_append]
            omega
        · refine .inl ⟨?_, by omega⟩
          rw [IsWhole, hcaptured, List.length_append]
          omega
    · -- the header alone is smaller than the buffer
      rw [read_of_lt_header (Nat.lt_of_not_le hheader)] at h
      cases h
      simp only [capacity, headerLength] at *
      omega

end ClassicRecord

/-! ## Blocks -/

namespace CaptureBlock

variable {order before : ByteOrder} {kind : BlockKind} {input : Bytes}

def bodyRead (order : ByteOrder) (kind : BlockKind) (input : Bytes) :
    Except BodyFault CaptureBlock :=
  let length := input.num order 4 4
  ofBody order kind length (input.num order (length - 4) 4) (input.slice 8 (length - 12))

theorem readBody_of_badLength (h : kind.minLength ≤ input.length)
    (hlength : input.num order 4 4 < kind.minLength) :
    readBody order kind input = .faulty (.badLength (input.drop 8)) := by
  simp only [readBody, if_neg (Nat.not_lt_of_le h), dif_pos hlength]

/-- The total length that stands behind the body is missed last. -/
theorem readBody_of_lt (h : kind.minLength ≤ input.length)
    (hmin : kind.minLength ≤ input.num order 4 4) (hlength : input.length < input.num order 4 4) :
    readBody order kind input =
      if input.length < input.num order 4 4 - 4 then
        .cutOff (input.num order 4 4 - 4 - input.length)
      else .cutOff (input.num order 4 4 - input.length) := by
  simp only [readBody, if_neg (Nat.not_lt_of_le h), dif_neg (Nat.not_lt_of_le hmin),
    dif_pos hlength]

theorem readBody_of_le (hmin : kind.minLength ≤ input.num order 4 4)
    (hlength : input.num order 4 4 ≤ input.length) :
    (∀ block, bodyRead order kind input = .ok block → ∃ shorter, readBody order kind input =
      .whole block (input.drop (input.num order 4 4)) shorter) ∧
    (∀ fault, bodyRead order kind input = .error (.faulty fault) →
      readBody order kind input = .faulty fault) ∧
    (∀ missing, bodyRead order kind input = .error (.cutOff missing) →
      readBody order kind input = .cutOff missing) := by
  have h12 := kind.le_minLength
  unfold readBody
  simp only [if_neg (show ¬ input.length < kind.minLength by omega),
    dif_neg (Nat.not_lt_of_le hmin), dif_neg (Nat.not_lt_of_le hlength),
    if_neg (show ¬ input.length < input.num order 4 4 - 4 by omega)]
  refine ⟨fun block hbody => ?_, fun fault hbody => ?_, fun missing hbody => ?_⟩
  · simp only [bodyRead] at hbody
    refine ⟨?_, ?_⟩
    · rw [List.length_drop]
      omega
    · simp only [hbody]
  · simp only [bodyRead] at hbody
    simp only [hbody]
  · simp only [bodyRead] at hbody
    simp only [hbody]

theorem bodyRead_append (more : Bytes) (hmin : kind.minLength ≤ input.num order 4 4)
    (hlength : input.num order 4 4 ≤ input.length) :
    bodyRead order kind (input ++ more) = bodyRead order kind input := by
  have h12 := kind.le_minLength
  have hn : (input ++ more).num order 4 4 = input.num order 4 4 :=
    Bytes.num_append_left (by omega)
  simp only [bodyRead, hn]
  rw [Bytes.num_append_left (by omega), Bytes.slice_append_left (by omega)]

/-- The bytes are as long as they say they are. -/
def StatesLength (order : ByteOrder) (kind : BlockKind) (bs : Bytes) : Prop :=
  bs.num order 4 4 = bs.length ∧ kind.minLength ≤ bs.length

theorem of_readBody_whole {block : CaptureBlock} {rest : Bytes}
    {shorter : rest.length < input.length}
    (h : readBody order kind input = .whole block rest shorter) :
    kind.minLength ≤ input.num order 4 4 ∧ input.num order 4 4 ≤ input.length ∧
      bodyRead order kind input = .ok block ∧ rest = input.drop (input.num order 4 4) := by
  unfold readBody at h
  simp only at h
  split_ifs at h
  split at h
  · cases h
  · cases h
  · rename_i hbody
    cases h
    exact ⟨by omega, by omega, hbody, rfl⟩

theorem of_readBody_faulty {fault : ParseFault} (h : readBody order kind input = .faulty fault) :
    kind.minLength ≤ input.length ∧ input.num order 4 4 < kind.minLength ∧
        fault = .badLength (input.drop 8) ∨
      kind.minLength ≤ input.num order 4 4 ∧ input.num order 4 4 ≤ input.length ∧
        bodyRead order kind input = .error (.faulty fault) := by
  unfold readBody at h
  simp only at h
  split_ifs at h
  · cases h
    exact .inl ⟨by omega, by omega, rfl⟩
  · split at h
    · rename_i hbody
      cases h
      exact .inr ⟨by omega, by omega, hbody⟩
    · cases h
    · cases h

theorem of_readBody_cutOff {missing : Nat} (h : readBody order kind input = .cutOff missing) :
    input.length + missing = kind.minLength ∨
      kind.minLength ≤ input.length ∧ kind.minLength ≤ input.num order 4 4 ∧
        (input.length + missing = input.num order 4 4 - 4 ∨
          input.num order 4 4 - 4 ≤ input.length ∧
            input.length + missing = input.num order 4 4) ∨
      kind.minLength ≤ input.num order 4 4 ∧ input.num order 4 4 ≤ input.length ∧
        bodyRead order kind input = .error (.cutOff missing) := by
  unfold readBody at h
  simp only at h
  split_ifs at h
  · cases h
    exact .inl (by omega)
  · cases h
    exact .inr (.inl ⟨by omega, by omega, .inl (by omega)⟩)
  · cases h
    exact .inr (.inl ⟨by omega, by omega, .inr ⟨by omega, by omega⟩⟩)
  · split at h
    · cases h
    · rename_i hbody
      cases h
      exact .inr (.inr ⟨by omega, by omega, hbody⟩)
    · cases h

theorem num_length_append (more : Bytes) (h : kind.minLength ≤ input.length) :
    (input ++ more).num order 4 4 = input.num order 4 4 :=
  Bytes.num_append_left (by have := kind.le_minLength; omega)

/-- A block that is complete is so with more bytes behind it. -/
theorem readBody_append_of_le (more : Bytes) (hmin : kind.minLength ≤ input.num order 4 4)
    (hle : input.num order 4 4 ≤ input.length) :
    (∀ block, bodyRead order kind input = .ok block → ∃ shorter,
      readBody order kind (input ++ more) =
        .whole block (input.drop (input.num order 4 4) ++ more) shorter) ∧
    (∀ fault, bodyRead order kind input = .error (.faulty fault) →
      readBody order kind (input ++ more) = .faulty fault) ∧
    (∀ missing, bodyRead order kind input = .error (.cutOff missing) →
      readBody order kind (input ++ more) = .cutOff missing) := by
  have hnum : (input ++ more).num order 4 4 = input.num order 4 4 :=
    num_length_append more (Nat.le_trans hmin hle)
  have hread := @readBody_of_le order kind (input ++ more) (by rwa [hnum])
    (by rw [hnum, List.length_append]; omega)
  rwa [hnum, List.drop_append_of_le_length hle, bodyRead_append more hmin hle] at hread

/-- A block that is too large for the buffer fills it, or stays cut off. -/
theorem readBody_append_of_large (more : Bytes) (hlen : kind.minLength ≤ input.length)
    (hmin : kind.minLength ≤ input.num order 4 4)
    (hlarge : capacity ≤ input.num order 4 4 - 4 ∨
      input.num order 4 4 - 4 ≤ input.length ∧ capacity ≤ input.num order 4 4)
    (hmore : (input ++ more).length ≤ capacity) :
    StatesLength order kind (input ++ more) ∧ (input ++ more).length = capacity ∨
      ∃ missing, readBody order kind (input ++ more) = .cutOff missing ∧
        capacity ≤ (input ++ more).length + missing := by
  have hnum : (input ++ more).num order 4 4 = input.num order 4 4 := num_length_append more hlen
  have hlength : input.length ≤ (input ++ more).length := by simp
  by_cases hle : input.num order 4 4 ≤ (input ++ more).length
  · exact .inl ⟨⟨by omega, by omega⟩, by omega⟩
  · have hread := @readBody_of_lt order kind (input ++ more) (by omega) (by rwa [hnum])
      (by rw [hnum]; omega)
    rw [hnum] at hread
    rw [hread]
    refine .inr ?_
    split
    · exact ⟨_, rfl, by omega⟩
    · exact ⟨_, rfl, by omega⟩

theorem stable_readBody (order : ByteOrder) (kind : BlockKind) :
    Stable (readBody order kind) (StatesLength order kind) := by
  have h12 := kind.le_minLength
  constructor
  case whole =>
    intro input rest block shorter more h
    obtain ⟨hmin, hle, hbody, rfl⟩ := of_readBody_whole h
    exact (readBody_append_of_le more hmin hle).1 block hbody
  case faulty =>
    intro input fault more h
    rcases of_readBody_faulty h with ⟨hlen, hn, rfl⟩ | ⟨hmin, hle, hbody⟩
    · refine ⟨_, readBody_of_badLength ?_ ?_, .inr ⟨_, _, rfl, rfl, ?_⟩⟩
      · rw [List.length_append]
        omega
      · rwa [num_length_append more hlen]
      · rw [List.drop_append_of_le_length (by omega)]
        exact List.prefix_append _ _
    · exact ⟨fault, (readBody_append_of_le more hmin hle).2.1 fault hbody, .inl rfl⟩
  case cutOff =>
    intro input missing more h hlarge hmore
    rcases of_readBody_cutOff h with hlen | ⟨hlen, hmin, hmissing⟩ | ⟨hmin, hle, hbody⟩
    · -- no kind of block needs the whole buffer
      have h32 : kind.minLength ≤ 32 := by cases kind <;> decide
      simp only [capacity] at hlarge
      omega
    · exact readBody_append_of_large more hlen hmin (by omega) hmore
    · refine .inr ⟨missing, (readBody_append_of_le more hmin hle).2.2 missing hbody, ?_⟩
      rw [List.length_append]
      omega

theorem markedOrder?_append (more : Bytes) (h : 12 ≤ input.length) :
    markedOrder? (input ++ more) = markedOrder? input := by
  have hle : Bytes.le (input ++ more) 8 4 = input.le 8 4 :=
    @Bytes.num_append_left .little input more 8 4 h
  rw [markedOrder?, hle, Bytes.be_append_left h, markedOrder?]

theorem readSection_of_marked (h : 12 ≤ input.length) (hmarked : markedOrder? input = some order) :
    readSection input = readBody order .section input := by
  simp only [readSection, if_neg (Nat.not_lt_of_le h), hmarked]

theorem readSection_of_unmarked (h : 12 ≤ input.length) (hmarked : markedOrder? input = none) :
    readSection input = .faulty .unknownByteOrder := by
  simp only [readSection, if_neg (Nat.not_lt_of_le h), hmarked]

theorem readSection_whole_iff :
    (∃ block rest shorter, readSection input = .whole block rest shorter) ↔
      ∃ order, markedOrder? input = some order ∧
        BlockKind.minLength .section ≤ input.num order 4 4 ∧
        input.num order 4 4 ≤ input.length := by
  constructor
  · rintro ⟨block, rest, shorter, h⟩
    unfold readSection at h
    split at h
    · cases h
    · split at h
      · rename_i order hmarked
        obtain ⟨hmin, hle, -⟩ := of_readBody_whole h
        exact ⟨order, hmarked, hmin, hle⟩
      · cases h
  · rintro ⟨order, hmarked, hmin, hle⟩
    have h12 := BlockKind.le_minLength .section
    obtain ⟨shorter, hwhole⟩ := (readBody_of_le hmin hle).1 (.section order) rfl
    exact ⟨.section order, _, shorter, (readSection_of_marked (by omega) hmarked).trans hwhole⟩

theorem stable_readSection : Stable readSection fun bs =>
    ∃ order, markedOrder? bs = some order ∧ StatesLength order .section bs := by
  refine Feed.stable_of_front fun input => ?_
  by_cases hlen : input.length < 12
  · refine .inl ⟨12 - input.length, by simp only [readSection, if_pos hlen], ?_⟩
    simp only [capacity]
    omega
  · have hlong more : 12 ≤ (input ++ more).length := by
      rw [List.length_append]
      omega
    have hsame more : markedOrder? (input ++ more) = markedOrder? input :=
      markedOrder?_append more (by omega)
    cases hmarked : markedOrder? input with
    | none =>
      exact .inr ⟨_, fun _ => False, Feed.stable_faulty _, fun more =>
        ⟨readSection_of_unmarked (hlong more) ((hsame more).trans hmarked), False.elim⟩⟩
    | some order =>
      exact .inr ⟨_, _, stable_readBody order .section, fun more =>
        ⟨readSection_of_marked (hlong more) ((hsame more).trans hmarked),
          fun h => ⟨order, (hsame more).trans hmarked, h⟩⟩⟩

theorem read_of_section (h : 4 ≤ input.length)
    (htype : BlockKind.ofType (input.num before 0 4) = .section) :
    read before input = readSection input := by
  simp only [read, if_neg (Nat.not_lt_of_le h), htype]

theorem read_of_ne_section (h : 4 ≤ input.length)
    (htype : BlockKind.ofType (input.num before 0 4) = kind) (hkind : kind ≠ .section) :
    read before input = readBody before kind input := by
  cases kind
  case «section» => exact absurd rfl hkind
  all_goals simp only [read, if_neg (Nat.not_lt_of_le h), htype]

theorem isWhole_section {bs : Bytes} (htype : BlockKind.ofType (bs.num before 0 4) = .section)
    (hmarked : markedOrder? bs = some order) (h : StatesLength order .section bs) :
    IsWhole before order .section bs :=
  ⟨htype, fun _ => hmarked, fun hne => absurd rfl hne, h.1, h.2⟩

theorem isWhole_of_ne_section {bs : Bytes} (htype : BlockKind.ofType (bs.num before 0 4) = kind)
    (hkind : kind ≠ .section) (h : StatesLength before kind bs) : IsWhole before before kind bs :=
  ⟨htype, fun he => absurd he hkind, fun _ => rfl, h.1, h.2⟩

theorem IsWhole.length_unique {order' : ByteOrder} {kind' : BlockKind} {a b more more' : Bytes}
    (ha : IsWhole before order kind a) (hb : IsWhole before order' kind' b)
    (h : a ++ more = b ++ more') : a.length = b.length := by
  have hla : 12 ≤ a.length := Nat.le_trans kind.le_minLength ha.minLength_le
  have hlb : 12 ≤ b.length := Nat.le_trans kind'.le_minLength hb.minLength_le
  have hnum (o : ByteOrder) {i : Nat} (hi : i + 4 ≤ 12) : a.num o i 4 = b.num o i 4 := by
    rw [← @Bytes.num_append_left o a more i 4 (by omega), h, Bytes.num_append_left (by omega)]
  have hmark : markedOrder? a = markedOrder? b := by
    rw [← markedOrder?_append more hla, h, markedOrder?_append more' hlb]
  obtain rfl : kind = kind' := by rw [← ha.type_eq, hnum before (by decide), hb.type_eq]
  obtain rfl : order = order' := by
    by_cases hsection : kind = .section
    · have hmarked := ha.marked hsection
      rw [hmark, hb.marked hsection] at hmarked
      exact (Option.some.inj hmarked).symm
    · rw [ha.kept hsection, hb.kept hsection]
  rw [← ha.length_eq, ← hb.length_eq, hnum order (by decide)]

theorem stable (before : ByteOrder) :
    Stable (read before) fun bs => ∃ order kind, IsWhole before order kind bs := by
  refine Feed.stable_of_front fun input => ?_
  by_cases hlen : input.length < 4
  · refine .inl ⟨4 - input.length, by simp only [read, if_pos hlen], ?_⟩
    simp only [capacity]
    omega
  · have hlong more : 4 ≤ (input ++ more).length := by
      rw [List.length_append]
      omega
    have hsame more : (input ++ more).num before 0 4 = input.num before 0 4 :=
      Bytes.num_append_left (by omega)
    by_cases hkind : BlockKind.ofType (input.num before 0 4) = .section
    · have htype more : BlockKind.ofType ((input ++ more).num before 0 4) = .section := by
        rw [hsame, hkind]
      refine .inr ⟨_, _, stable_readSection, fun more =>
        ⟨read_of_section (hlong more) (htype more), ?_⟩⟩
      rintro ⟨order, hmarked, h⟩
      exact ⟨order, .section, isWhole_section (htype more) hmarked h⟩
    · exact .inr ⟨_, _, stable_readBody before (BlockKind.ofType (input.num before 0 4)),
        fun more => ⟨read_of_ne_section (hlong more) (by rw [hsame]) hkind,
          fun h => ⟨before, _, isWhole_of_ne_section (by rw [hsame]) hkind h⟩⟩⟩

end CaptureBlock

end FrameIndex
