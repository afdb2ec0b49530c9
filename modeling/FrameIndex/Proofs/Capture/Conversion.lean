import FrameIndex.Proofs.Capture.Interfaces
import Mathlib.Data.Nat.Bitwise

/-!
# Converting ticks

Ticks are converted in words of 128 bits. Nothing goes wrong on the way (`Ticks.inWords_eq`): the
ticks in a second are refused where they do not fit, and they are never zero; ticks of 64 bits are
too few for a million times their number to overflow. What comes out are the microseconds rounded
down, if 64 bits with a sign hold them (`Ticks.converted_exactly`).
-/

namespace FrameIndex

namespace Ticks

/-! ## Arithmetic in words -/

abbrev Word := BitVec 128

inductive WordFault where
  | overflow
  | divisionByZero
  deriving DecidableEq

def product (a b : Word) : Except WordFault Word :=
  if a.umulOverflow b then .error .overflow else .ok (a * b)

def quotient (a b : Word) : Except WordFault Word :=
  if b = 0 then .error .divisionByZero else .ok (a / b)

def power? (base : Word) : Nat → Option Word
  | 0 => some 1
  | n + 1 => (power? base n).bind fun power => (product power base).toOption

/-- A word moved to the left by less than its width. -/
def shiftedLeft? (a : Word) (places : Nat) : Option Word :=
  if places < 128 then some (a <<< places) else none

/-- The ticks in a second as a word. -/
def unitWord? (resolution : UInt8) : Option Word :=
  let exponent := (resolution &&& 0x7f).toNat
  if resolution &&& 0x80 = 0 then power? 10 exponent else shiftedLeft? 1 exponent

/-- The number in 64 bits with a sign, if it fits. -/
def narrow? (a : Word) : Option Int64 :=
  if a.toNat < 2 ^ 63 then some (.ofNat a.toNat) else none

/-- The microseconds in a number of ticks as words compute them. There are none if the ticks in a
second or the result do not fit. -/
def inWords (ticks : UInt64) (resolution : UInt8) : Except WordFault (Option Int64) :=
  match unitWord? resolution with
  | none => .ok none
  | some unit => do
    let scaled ← product (.ofNat 128 ticks.toNat) 1000000
    let micros ← quotient scaled unit
    return narrow? micros

theorem product_eq_ok {a b : Word} (h : a.toNat * b.toNat < 2 ^ 128) :
    product a b = .ok (a * b) := by
  have hfits : ¬ a.umulOverflow b := by
    simp only [BitVec.umulOverflow, ge_iff_le, decide_eq_true_eq]
    omega
  exact if_neg hfits

theorem product_eq_error {a b : Word} (h : 2 ^ 128 ≤ a.toNat * b.toNat) :
    product a b = .error .overflow := by
  have hover : a.umulOverflow b := by
    simp only [BitVec.umulOverflow, ge_iff_le, decide_eq_true_eq]
    omega
  exact if_pos hover

theorem toNat_mul_of_lt {a b : Word} (h : a.toNat * b.toNat < 2 ^ 128) :
    (a * b).toNat = a.toNat * b.toNat := by
  rw [BitVec.toNat_mul, Nat.mod_eq_of_lt h]

theorem map_power? {base : Word} (hpos : 0 < base.toNat) (n : Nat) :
    (power? base n).map BitVec.toNat =
      if base.toNat ^ n < 2 ^ 128 then some (base.toNat ^ n) else none := by
  induction n with
  | zero => rfl
  | succ n ih =>
    rw [power?]
    have hle : base.toNat ^ n ≤ base.toNat ^ (n + 1) := Nat.pow_le_pow_right hpos (Nat.le_succ n)
    by_cases hpower : base.toNat ^ n < 2 ^ 128
    · rw [if_pos hpower] at ih
      obtain ⟨power, hword, hvalue⟩ := Option.map_eq_some_iff.1 ih
      have hpower' : power.toNat * base.toNat = base.toNat ^ (n + 1) := by
        rw [hvalue, Nat.pow_succ]
      rw [hword, Option.bind_some]
      by_cases hfits : base.toNat ^ (n + 1) < 2 ^ 128
      · rw [← hpower'] at hfits ⊢
        rw [product_eq_ok hfits, if_pos hfits, Except.toOption, Option.map_some,
          toNat_mul_of_lt hfits]
      · rw [if_neg hfits, product_eq_error (by omega)]
        rfl
    · rw [if_neg hpower] at ih
      rw [Option.map_eq_none_iff.1 ih, if_neg (by omega)]
      rfl

theorem map_shiftedLeft? {n : Nat} (h : n < 128) :
    (shiftedLeft? 1 n).map BitVec.toNat = some (2 ^ n) := by
  have hlt : 2 ^ n < 2 ^ 128 := Nat.pow_lt_pow_right (by decide) h
  have hone : (1 : Word).toNat = 1 := rfl
  rw [shiftedLeft?, if_pos h, Option.map_some, BitVec.toNat_shiftLeft, Nat.shiftLeft_eq, hone,
    Nat.one_mul, Nat.mod_eq_of_lt hlt]

theorem toNat_low_bits (resolution : UInt8) :
    (resolution &&& 0x7f).toNat = resolution.toNat % 128 := by
  rw [UInt8.toNat_and]
  exact Nat.and_two_pow_sub_one_eq_mod _ 7

theorem high_bit_eq_zero_iff (resolution : UInt8) :
    resolution &&& 0x80 = 0 ↔ resolution.toNat / 128 % 2 ≠ 1 := by
  have hvalue : (resolution &&& 0x80).toNat = (resolution.toNat.testBit 7).toNat * 128 := by
    rw [UInt8.toNat_and]
    exact Nat.and_two_pow _ 7
  have hbit : resolution.toNat.testBit 7 = decide (resolution.toNat / 128 % 2 = 1) :=
    Nat.testBit_eq_decide_div_mod_eq
  rw [← UInt8.toNat_inj, hvalue, hbit]
  by_cases h : resolution.toNat / 128 % 2 = 1 <;> simp [h]

theorem map_unitWord? (resolution : UInt8) :
    (unitWord? resolution).map BitVec.toNat = perSecond? resolution.toNat := by
  rw [perSecond?_eq, unit, unitWord?, toNat_low_bits]
  simp only [high_bit_eq_zero_iff]
  have hexponent : resolution.toNat % 128 < 128 := Nat.mod_lt _ (by decide)
  by_cases hbinary : resolution.toNat / 128 % 2 = 1
  · have hlt : 2 ^ (resolution.toNat % 128) < 2 ^ 128 := Nat.pow_lt_pow_right (by decide) hexponent
    rw [if_neg (not_not.2 hbinary), if_pos hbinary, if_pos hlt]
    exact map_shiftedLeft? hexponent
  · rw [if_pos hbinary, if_neg hbinary]
    exact map_power? (by decide) _

theorem unit_pos (resolution : Nat) : 0 < unit resolution := by
  unfold unit
  split
  · exact Nat.pow_pos (by decide)
  · exact Nat.pow_pos (by decide)

theorem unitWord_ne_zero {resolution : UInt8} {word : Word} (h : unitWord? resolution = some word) :
    word ≠ 0 := by
  have hvalue := map_unitWord? resolution
  rw [h, Option.map_some, perSecond?_eq, eq_comm, Option.ite_none_right_eq_some] at hvalue
  have hpos := unit_pos resolution.toNat
  rw [Option.some.inj hvalue.2] at hpos
  rintro rfl
  exact absurd hpos (by decide)

theorem toNat_source (ticks : UInt64) : (BitVec.ofNat 128 ticks.toNat).toNat = ticks.toNat := by
  have hlt := ticks.toNat_lt
  rw [BitVec.toNat_ofNat, Nat.mod_eq_of_lt (by omega)]

theorem quotient_eq_ok {a b : Word} (h : b ≠ 0) : quotient a b = .ok (a / b) := if_neg h

theorem narrow?_eq {a : Word} {n : Nat} (h : a.toNat = n) :
    narrow? a = (if n < 2 ^ 63 then some n else none).map Int64.ofNat := by
  rw [narrow?, h]
  split <;> rfl

theorem toNat_micros (ticks : UInt64) (unit : Word) :
    (BitVec.ofNat 128 ticks.toNat).toNat * (1000000 : Word).toNat < 2 ^ 128 ∧
      (BitVec.ofNat 128 ticks.toNat * 1000000 / unit).toNat =
        ticks.toNat * 1000000 / unit.toNat := by
  have hlt := ticks.toNat_lt
  have hmillion : (1000000 : Word).toNat = 1000000 := rfl
  have hfits : (BitVec.ofNat 128 ticks.toNat).toNat * (1000000 : Word).toNat < 2 ^ 128 := by
    rw [toNat_source, hmillion]
    omega
  refine ⟨hfits, ?_⟩
  rw [BitVec.toNat_udiv, toNat_mul_of_lt hfits, toNat_source, hmillion]

/-- Nothing overflows and nothing is divided by zero: words compute what numbers do. -/
theorem inWords_eq (ticks : UInt64) (resolution : UInt8) :
    inWords ticks resolution =
      .ok ((toMicros? ticks.toNat resolution.toNat).map Int64.ofNat) := by
  rw [inWords, toMicros?, ← map_unitWord? resolution, bound_eq]
  cases hunit : unitWord? resolution with
  | none => rfl
  | some unit =>
    obtain ⟨hfits, hmicros⟩ := toNat_micros ticks unit
    rw [Option.map_some, Option.bind_some, ← narrow?_eq hmicros]
    simp only [product_eq_ok hfits, quotient_eq_ok (unitWord_ne_zero hunit)]
    rfl

/-! ## What comes out -/

theorem toMicros?_eq_some_iff {ticks resolution q : Nat} :
    toMicros? ticks resolution = some q ↔
      unit resolution < 2 ^ 128 ∧ q = micros ticks resolution ∧ q < 2 ^ 63 := by
  by_cases h : Convertible ticks resolution
  · rw [toMicros?_of_convertible h, Option.some.injEq]
    constructor
    · intro hq
      exact ⟨h.1, hq.symm, hq ▸ h.2⟩
    · intro hq
      exact hq.2.1.symm
  · rw [toMicros?_of_not_convertible h]
    constructor
    · intro hq
      cases hq
    · intro hq
      exact absurd ⟨hq.1, hq.2.1 ▸ hq.2.2⟩ h

theorem micros_mono {earlier ticks : Nat} (h : earlier ≤ ticks) (resolution : Nat) :
    micros earlier resolution ≤ micros ticks resolution :=
  Nat.div_le_div_right (Nat.mul_le_mul_right _ h)

theorem micros_seconds (seconds resolution : Nat) :
    micros (seconds * unit resolution) resolution = seconds * 1000000 := by
  rw [micros, Nat.mul_right_comm, Nat.mul_div_cancel _ (unit_pos resolution)]

/-- **Ticks are converted exactly, or not at all.** There is a result if and only if the ticks in a
second fit in 128 bits and the microseconds, rounded down, in 64 bits with a sign. Words of 128 bits
compute it, and nothing overflows or is divided by zero on the way. So what is earlier is converted
as well, to no later time, and whole seconds are converted to exactly their microseconds. -/
theorem converted_exactly (ticks : UInt64) (resolution : UInt8) :
    (unit resolution.toNat =
      if resolution.toNat < 128 then 10 ^ (resolution.toNat % 128)
      else 2 ^ (resolution.toNat % 128)) ∧
    (∀ q, toMicros? ticks.toNat resolution.toNat = some q ↔
      unit resolution.toNat < 2 ^ 128 ∧
      q = ticks.toNat * 1000000 / unit resolution.toNat ∧ q < 2 ^ 63) ∧
    (∃ result, inWords ticks resolution = .ok result ∧
      result.map Int64.toInt = (toMicros? ticks.toNat resolution.toNat).map Int.ofNat) ∧
    (∀ later : UInt64, ticks ≤ later →
      ∀ q, toMicros? later.toNat resolution.toNat = some q →
        ∃ p ≤ q, toMicros? ticks.toNat resolution.toNat = some p) ∧
    (∀ seconds q, ticks.toNat = seconds * unit resolution.toNat →
      toMicros? ticks.toNat resolution.toNat = some q → q = seconds * 1000000) := by
  refine ⟨?_, fun q => toMicros?_eq_some_iff, ⟨_, inWords_eq ticks resolution, ?_⟩, ?_, ?_⟩
  · have hlt := resolution.toNat_lt
    unfold unit
    by_cases h : resolution.toNat < 128
    · rw [if_neg (by omega), if_pos h]
    · rw [if_pos (by omega), if_neg h]
  · cases hmicros : toMicros? ticks.toNat resolution.toNat with
    | none => rfl
    | some q =>
      have hlt := (toMicros?_eq_some_iff.1 hmicros).2.2
      exact congrArg some (Int64.toInt_ofNat_of_lt hlt)
  · intro later hle q hq
    obtain ⟨hfits, rfl, hlt⟩ := toMicros?_eq_some_iff.1 hq
    have hmono := micros_mono (UInt64.le_iff_toNat_le.1 hle) resolution.toNat
    exact ⟨_, hmono, toMicros?_eq_some_iff.2 ⟨hfits, rfl, Nat.lt_of_le_of_lt hmono hlt⟩⟩
  · intro seconds q hticks hq
    obtain ⟨-, rfl, -⟩ := toMicros?_eq_some_iff.1 hq
    rw [hticks, micros_seconds]

/-- The largest decimal resolution that is supported, and the next. -/
example : perSecond? 38 = some (10 ^ 38) ∧ perSecond? 39 = none := by decide

end Ticks

end FrameIndex
