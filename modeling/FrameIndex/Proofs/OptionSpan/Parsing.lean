import FrameIndex.ProtocolHeaders

/-!
# Parsing an option area

An option area is read from its front: an end-of-list option with everything that is left, a run of
no-operation options up to another byte, or an option that states its length (`OptionSpan.Heads`).
Where none of these stands, the area is used up or malformed (`OptionSpan.parse_eq_nil_iff`), and at
most one of them stands at any place (`OptionSpan.parse_of_heads`). So what is parsed is what stands
in the area, one behind the other, as far as it goes (`OptionSpan.parse_eq_cons_iff`).
-/

namespace FrameIndex

namespace OptionSpan

/-! ## What stands at the front of an area -/

/-- The option, or the run of options, at the front of an area. -/
inductive Heads : Bytes → OptionSpan → Prop where
  /-- The end-of-list option, with everything that is left. -/
  | endOfList (rest : Bytes) : Heads (0 :: rest) ⟨0, rest.length + 1⟩
  /-- All no-operation options up to another byte. -/
  | noOperations (more : Nat) (rest : Bytes) (ended : rest.head? ≠ some 1) :
      Heads (List.replicate (more + 1) 1 ++ rest) ⟨1, more + 1⟩
  /-- An option of the length that it states. Its first two bytes are counted. -/
  | sized (kind length : UInt8) (body rest : Bytes) (other : 2 ≤ kind.toNat)
      (stated : length.toNat = body.length + 2) :
      Heads (kind :: length :: (body ++ rest)) ⟨kind.toNat, body.length + 2⟩

/-- The first byte begins an option without a length, with one below two, or with one that runs past
the area. -/
inductive Malformed : Bytes → Prop where
  | unstated (kind : UInt8) (other : 2 ≤ kind.toNat) : Malformed [kind]
  | tooShort (kind length : UInt8) (rest : Bytes) (other : 2 ≤ kind.toNat)
      (short : length.toNat < 2) : Malformed (kind :: length :: rest)
  | tooLong (kind length : UInt8) (rest : Bytes) (other : 2 ≤ kind.toNat)
      (long : rest.length + 2 < length.toNat) : Malformed (kind :: length :: rest)

section

variable {area : Bytes} {span : OptionSpan}

theorem Heads.length_pos (h : Heads area span) : 0 < span.length := by
  cases h <;> exact Nat.succ_pos _

theorem Heads.length_le (h : Heads area span) : span.length ≤ area.length := by
  cases h with
  | endOfList rest => simp
  | noOperations more rest ended => simp
  | sized kind length body rest other stated => simp

theorem Heads.kind_eq (h : Heads area span) : span.kind = area.byteAt 0 := by
  cases h <;> rfl

theorem takeWhile_replicate_append {more : Nat} {rest : Bytes} (ended : rest.head? ≠ some 1) :
    (List.replicate more (1 : UInt8) ++ rest).takeWhile (· == 1) = List.replicate more 1 := by
  have hrest : rest.takeWhile (· == 1) = [] := by
    cases rest with
    | nil => rfl
    | cons first rest =>
      apply List.takeWhile_cons_of_neg
      intro hone
      exact ended (congrArg some (eq_of_beq hone))
  rw [List.takeWhile_append_of_pos, hrest, List.append_nil]
  intro b hb
  simp [List.eq_of_mem_replicate hb]

theorem parse_nil : parse [] = [] := by
  rw [parse.eq_def]

theorem parse_of_heads (h : Heads area span) :
    parse area = span :: parse (area.drop span.length) := by
  cases h with
  | endOfList rest =>
    have hrest : (0 :: rest : Bytes).drop (rest.length + 1) = [] := by simp
    rw [hrest, parse_nil, parse.eq_def]
    rfl
  | noOperations more rest ended =>
    rw [List.replicate_succ, List.cons_append, parse.eq_def]
    simp [takeWhile_replicate_append ended]
  | sized kind length body rest other stated =>
    have hzero : kind.toNat ≠ 0 := by omega
    have hone : kind.toNat ≠ 1 := by omega
    rw [parse.eq_def]
    simp [hzero, hone, stated]

theorem parse_of_malformed (h : Malformed area) : parse area = [] := by
  have hkind : ∀ kind : UInt8, 2 ≤ kind.toNat → kind.toNat ≠ 0 ∧ kind.toNat ≠ 1 := by omega
  rw [parse.eq_def]
  cases h with
  | unstated kind other => simp [hkind kind other]
  | tooShort kind length rest other short =>
    simp only [hkind kind other, if_false]
    exact if_neg (by omega)
  | tooLong kind length rest other long =>
    simp only [hkind kind other, if_false]
    exact if_neg (by omega)

/-- A no-operation option begins a run of them that ends in front of another byte. -/
theorem exists_run (tail : Bytes) :
    ∃ more rest, (1 :: tail : Bytes) = List.replicate (more + 1) 1 ++ rest ∧
      rest.head? ≠ some 1 := by
  induction tail with
  | nil => exact ⟨0, [], rfl, by simp⟩
  | cons first tail ih =>
    by_cases hone : first = 1
    · subst hone
      obtain ⟨more, rest, hrun, ended⟩ := ih
      exact ⟨more + 1, rest, congrArg (List.cons 1) hrun, ended⟩
    · exact ⟨0, first :: tail, rfl, by simp [hone]⟩

theorem exists_heads (area : Bytes) : area = [] ∨ Malformed area ∨ ∃ span, Heads area span := by
  cases area with
  | nil => exact .inl rfl
  | cons kind tail =>
    apply Or.inr
    by_cases hzero : kind = 0
    · subst hzero
      exact .inr ⟨_, .endOfList tail⟩
    by_cases hone : kind = 1
    · subst hone
      obtain ⟨more, rest, hrun, ended⟩ := exists_run tail
      rw [hrun]
      exact .inr ⟨_, .noOperations more rest ended⟩
    have other : 2 ≤ kind.toNat := by
      have hzero : kind.toNat ≠ 0 := fun h => hzero (UInt8.toNat_inj.1 h)
      have hone : kind.toNat ≠ 1 := fun h => hone (UInt8.toNat_inj.1 h)
      omega
    cases tail with
    | nil => exact .inl (.unstated kind other)
    | cons length rest =>
      by_cases short : length.toNat < 2
      · exact .inl (.tooShort kind length rest other short)
      by_cases long : rest.length + 2 < length.toNat
      · exact .inl (.tooLong kind length rest other long)
      -- the option takes what it states, without the two bytes in front
      have hbody : length.toNat = (rest.take (length.toNat - 2)).length + 2 := by
        rw [List.length_take]
        omega
      have hheads := Heads.sized kind length _ (rest.drop (length.toNat - 2)) other hbody
      rw [List.take_append_drop] at hheads
      exact .inr ⟨_, hheads⟩

theorem parse_eq_nil_iff : parse area = [] ↔ area = [] ∨ Malformed area := by
  constructor
  · intro h
    rcases exists_heads area with hnil | hmalformed | ⟨span, hheads⟩
    · exact .inl hnil
    · exact .inr hmalformed
    · rw [parse_of_heads hheads] at h
      cases h
  · rintro (rfl | hmalformed)
    · exact parse_nil
    · exact parse_of_malformed hmalformed

theorem parse_eq_cons_iff {rest : List OptionSpan} :
    parse area = span :: rest ↔ Heads area span ∧ rest = parse (area.drop span.length) := by
  constructor
  · intro h
    rcases exists_heads area with hnil | hmalformed | ⟨span', hheads⟩
    · rw [parse_eq_nil_iff.2 (.inl hnil)] at h
      cases h
    · rw [parse_of_malformed hmalformed] at h
      cases h
    · rw [parse_of_heads hheads] at h
      cases h
      exact ⟨hheads, rfl⟩
  · rintro ⟨hheads, rfl⟩
    exact parse_of_heads hheads

theorem Heads.unique {span' : OptionSpan} (h : Heads area span) (h' : Heads area span') :
    span = span' := by
  have hparse := parse_of_heads h
  rw [parse_of_heads h'] at hparse
  exact (List.cons.inj hparse).1.symm

theorem of_parse_eq_cons {rest : List OptionSpan} (h : parse area = span :: rest) :
    0 < span.length ∧ span.length ≤ area.length ∧ rest = parse (area.drop span.length) := by
  obtain ⟨hheads, hrest⟩ := parse_eq_cons_iff.1 h
  exact ⟨hheads.length_pos, hheads.length_le, hrest⟩

end

end OptionSpan

end FrameIndex
