import FrameIndex.Proofs.Fields
import FrameIndex.Traversal
import Mathlib.Tactic.SplitIfs

/-!
# Protocol headers with more bytes behind them

A header that is read is read the same with more bytes behind it: every reader asks for as many
bytes as the header states, and looks no further. The only exception are ICMP timestamp messages,
which have to end with their header (`IcmpHeader.length?_append_timestamp`).
-/

namespace FrameIndex

variable {rest : Bytes} (more : Bytes)

theorem EthernetHeader.typeField?_append {type : Nat} (h : typeField? rest = some type) :
    typeField? (rest ++ more) = some type := by
  have hlen : 14 ≤ rest.length := length_le h
  simp only [typeField?, List.length_append, Option.ite_none_right_eq_some,
    Option.some.injEq] at *
  rw [Bytes.be_append_left (by omega)]
  exact ⟨Nat.le_add_right_of_le hlen, h.2⟩

theorem VlanTag.typeField?_append {type : Nat} (h : typeField? rest = some type) :
    typeField? (rest ++ more) = some type := by
  have hlen : 4 ≤ rest.length := length_le h
  simp only [typeField?, List.length_append, Option.ite_none_right_eq_some,
    Option.some.injEq] at *
  rw [Bytes.be_append_left (by omega)]
  exact ⟨Nat.le_add_right_of_le hlen, h.2⟩

theorem ArpMessage.length?_append {n : Nat} (h : length? rest = some n) :
    length? (rest ++ more) = some n := by
  simp only [length?, List.length_append, Option.ite_none_right_eq_some, Option.some.injEq] at *
  obtain ⟨⟨hmin, hle⟩, hn⟩ := h
  rw [Bytes.byteAt_append_left (by omega), Bytes.byteAt_append_left (by omega)]
  omega

theorem Ipv4Header.read?_append {h : Ipv4Header} (hr : read? rest = some h) :
    read? (rest ++ more) = some h := by
  simp only [read?, Option.ite_none_right_eq_some, Option.some.injEq] at hr
  obtain ⟨⟨hmin, hversion, hwords, hle⟩, rfl⟩ := hr
  have hfirst : (rest ++ more).byteAt 0 = rest.byteAt 0 := Bytes.byteAt_append_left (by omega)
  simp only [read?, hfirst, List.length_append]
  rw [if_pos (by omega), Bytes.be_append_left (by omega), Bytes.be_append_left (by omega),
    Bytes.be_append_left (by omega), Bytes.byteAt_append_left (by omega),
    Bytes.slice_append_left (by omega)]

theorem Ipv6Header.nextHeader?_append {next : Nat} (h : nextHeader? rest = some next) :
    nextHeader? (rest ++ more) = some next := by
  have hlen : 40 ≤ rest.length := length_le h
  simp only [nextHeader?, List.length_append, Option.ite_none_right_eq_some,
    Option.some.injEq] at *
  rw [Bytes.byteAt_append_left (by omega), Bytes.byteAt_append_left (by omega)]
  exact ⟨⟨Nat.le_add_right_of_le hlen, h.1.2⟩, h.2⟩

theorem Ipv6Extension.length_append (kind : Ipv6Extension) (h : 2 ≤ rest.length) :
    kind.length (rest ++ more) = kind.length rest := by
  cases kind <;> simp only [length, Bytes.byteAt_append_left (show 1 < rest.length by omega)]

theorem TcpHeader.read?_append {h : TcpHeader} (hr : read? rest = some h) :
    read? (rest ++ more) = some h := by
  simp only [read?, Option.ite_none_right_eq_some, Option.some.injEq] at hr
  obtain ⟨⟨hmin, hwords, hle⟩, rfl⟩ := hr
  have hoffset : (rest ++ more).byteAt 12 = rest.byteAt 12 := Bytes.byteAt_append_left (by omega)
  simp only [read?, hoffset, List.length_append]
  rw [if_pos (by omega), Bytes.slice_append_left (by omega)]

theorem UdpHeader.length?_append {n : Nat} (h : length? rest = some n) :
    length? (rest ++ more) = some n := by
  simp only [length?, List.length_append, Option.ite_none_right_eq_some, Option.some.injEq] at *
  exact ⟨by omega, h.2⟩

theorem IcmpHeader.length?_append {n : Nat} (h : length? rest = some n) (hn : n ≠ 20) :
    length? (rest ++ more) = some n := by
  unfold length? at h
  split_ifs at h with hshort htype hexact
  · exact absurd (Option.some.inj h).symm hn
  · unfold length?
    rw [List.length_append, if_neg (by omega), Bytes.byteAt_append_left (by omega),
      Bytes.byteAt_append_left (by omega), if_neg htype, h]

theorem IcmpHeader.length_of_timestamp (h : length? rest = some 20) : rest.length = 20 := by
  unfold length? at h
  split_ifs at h with hshort htype hexact
  · exact hexact
  · cases h

/-- With anything behind it, a timestamp message is not read. -/
theorem IcmpHeader.length?_append_timestamp (h : length? rest = some 20) (hmore : more ≠ []) :
    length? (rest ++ more) = none := by
  have hlen := length_of_timestamp h
  have hpos := List.length_pos_iff.2 hmore
  unfold length? at h ⊢
  split_ifs at h with hshort htype
  · rw [List.length_append, if_neg (by omega), Bytes.byteAt_append_left (by omega),
      Bytes.byteAt_append_left (by omega), if_pos htype, if_neg (by omega)]
  · cases h

theorem Icmpv6Header.length?_append {n : Nat} (h : length? rest = some n)
    (hsmall : (rest ++ more).length < 4294967296) : length? (rest ++ more) = some n := by
  simp only [length?, List.length_append, Option.ite_none_right_eq_some, Option.some.injEq] at *
  exact ⟨⟨by omega, hsmall⟩, h.2⟩

theorem GreHeader.read?_append {h : GreHeader} (hr : read? rest = some h) :
    read? (rest ++ more) = some h := by
  simp only [read?, Option.ite_none_right_eq_some, Option.some.injEq] at hr
  obtain ⟨⟨hmin, hle⟩, rfl⟩ := hr
  have hflags : (rest ++ more).be 0 2 = rest.be 0 2 := Bytes.be_append_left (by omega)
  simp only [read?, hflags, List.length_append]
  rw [if_pos (by omega), Bytes.be_append_left (by omega)]

/-! ## The next header -/

theorem Layer.ofProtocol?_of_extension {next : Nat} {kind : Ipv6Extension}
    (h : Ipv6Extension.ofNextHeader? next = some kind) : ofProtocol? next = none := by
  unfold Ipv6Extension.ofNextHeader? at h
  split at h
  all_goals first | rfl | cases h

theorem Layer.ofNextHeader?_append (next : Nat) :
    ofNextHeader? next (rest ++ more) = ofNextHeader? next rest ∨
      ofNextHeader? next rest = none := by
  unfold ofNextHeader?
  rw [List.length_append]
  by_cases hrest : rest.length < Ipv6Extension.minLength
  · rw [if_pos hrest]
    split
    · exact .inl rfl
    · split
      · rename_i hkind
        exact .inr (ofProtocol?_of_extension hkind)
      · exact .inl rfl
  · rw [if_neg hrest, if_neg (by omega)]
    exact .inl rfl

end FrameIndex
