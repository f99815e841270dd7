import Mathlib.Algebra.Order.Field.Power
import Mathlib.Algebra.Order.Field.Rat
import Mathlib.Algebra.Order.GroupWithZero.WithZero
import Mathlib.Algebra.Order.Monoid.WithTop
import Mathlib.Data.Nat.Digits.Defs
import Mathlib.Tactic.Linarith
import Mathlib.Tactic.NormNum
import Mathlib.Tactic.Positivity
import SteeringChannel.Number.Binary64

/-!
Floats as numbers: which of them lie above, at and below zero, and which values round to zero.
-/

namespace SteeringChannel.Binary64

def signed (negative : Bool) (size : ℚ) : ℚ := if negative then -size else size

def number? : Binary64 → Option (WithBot (WithTop ℚ))
  | nan => none
  | infinite true => some ⊥
  | infinite false => some (⊤ : WithTop ℚ)
  | finite negative significand exponent =>
      some (signed negative (significand * 2 ^ exponent) : WithTop ℚ)

theorem signed_eq_zero {negative : Bool} {size : ℚ} : signed negative size = 0 ↔ size = 0 := by
  cases negative <;> simp [signed]

theorem signed_nonneg {negative : Bool} {size : ℚ} (counts : 0 ≤ size) :
    0 ≤ signed negative size ↔ negative = false ∨ size = 0 := by
  cases negative <;> simp [signed, counts, counts.ge_iff_eq']

theorem size_eq_zero {significand : Nat} {exponent : Int} :
    (significand * 2 ^ exponent : ℚ) = 0 ↔ significand = 0 := by
  have : (2 : ℚ) ^ exponent ≠ 0 := zpow_ne_zero _ two_ne_zero
  simp [this]

theorem isZero_iff {float : Binary64} : float.isZero = true ↔ float.number? = some 0 := by
  match float with
  | nan => simp [isZero, number?]
  | infinite true => simp [isZero, number?]
  | infinite false => exact iff_of_false Bool.false_ne_true (by simp only [number?]; decide)
  | finite negative significand exponent =>
      rw [isZero, beq_iff_eq, number?, Option.some_inj]
      norm_cast
      rw [signed_eq_zero, size_eq_zero]

theorem isNonnegative_iff {float : Binary64} :
    float.isNonnegative = true ↔ ∃ number, float.number? = some number ∧ 0 ≤ number := by
  match float with
  | nan => simp [isNonnegative, number?]
  | infinite true => simp [isNonnegative, number?]
  | infinite false => simp [isNonnegative, number?]
  | finite negative significand exponent =>
      have counts : (0 : ℚ) ≤ significand * 2 ^ exponent := by positivity
      simp only [isNonnegative, number?, Option.some_inj, exists_eq_left']
      norm_cast
      rw [signed_nonneg counts, size_eq_zero]
      simp

theorem roundQuotient_eq_zero {numerator denominator : Nat} (some : 0 < denominator) :
    roundQuotient numerator denominator = 0 ↔ 2 * numerator ≤ denominator := by
  have zero_iff : numerator / denominator = 0 ↔ numerator < denominator :=
    Nat.div_eq_zero_iff_lt some
  rw [roundQuotient]
  by_cases small : numerator < denominator
  · rw [zero_iff.mpr small, Nat.mod_eq_of_lt small]
    split
    next less => exact iff_of_true rfl less.le
    next =>
      split
      next more => exact iff_of_false (Nat.succ_ne_zero 0) more.not_ge
      next less => exact iff_of_true rfl (Nat.not_lt.mp less)
  · have whole : 0 < numerator / denominator := Nat.pos_of_ne_zero (mt zero_iff.mp small)
    refine iff_of_false (Nat.ne_of_gt ?_) (by omega)
    split
    next => exact whole
    next => split <;> omega

theorem twoTo_cast (exponent : Nat) : (twoTo exponent : ℚ) = 2 ^ exponent := by
  simp [twoTo]

theorem tenTo_cast (exponent : Nat) : (tenTo exponent : ℚ) = 10 ^ exponent := by
  simp [tenTo]

theorem scaled_ratio (numerator denominator : Nat) (exponent : Int) :
    ((scaled numerator denominator exponent).1 : ℚ) / (scaled numerator denominator exponent).2 =
      numerator / denominator / 2 ^ exponent := by
  rw [scaled]
  split
  next below =>
    obtain ⟨places, rfl⟩ := Int.exists_eq_neg_ofNat below.le
    simp [twoTo_cast]
    ring
  next above =>
    obtain ⟨places, rfl⟩ := Int.eq_ofNat_of_zero_le (Int.not_lt.mp above)
    simp [twoTo_cast]
    ring

theorem scaled_pos (numerator : Nat) {denominator : Nat} (some : 0 < denominator) (exponent : Int) :
    0 < (scaled numerator denominator exponent).2 := by
  have power (places : Nat) : 0 < twoTo places := Nat.two_pow_pos places
  rw [scaled]
  split
  · exact some
  · exact Nat.mul_pos some (power _)

def halfLeast : ℚ := 2 ^ (-1075 : Int)

theorem exponentOf_cases (numerator denominator : Nat) :
    exponentOf numerator denominator = -1074 ∨
      -1074 < exponentOf numerator denominator ∧
        exponentOf numerator denominator ≤
          (numerator.log2 : Int) - (denominator.log2 : Int) - 52 := by
  simp only [exponentOf, lowestExponent]
  split_ifs <;> omega

theorem lt_ratio {numerator denominator : Nat} (filled : numerator ≠ 0) (some : 0 < denominator) :
    (2 : ℚ) ^ ((numerator.log2 : Int) - (denominator.log2 : Int) - 1) <
      numerator / denominator := by
  have above : (2 : ℚ) ^ numerator.log2 ≤ numerator := mod_cast Nat.log2_self_le filled
  have below : (denominator : ℚ) < 2 ^ (denominator.log2 + 1) := mod_cast Nat.lt_log2_self
  have counts : (0 : ℚ) < denominator := mod_cast some
  have powers : (2 : ℚ) ^ ((numerator.log2 : Int) - (denominator.log2 : Int) - 1) =
      2 ^ numerator.log2 / 2 ^ (denominator.log2 + 1) := by
    rw [sub_sub, zpow_sub₀ two_ne_zero]
    norm_cast
  rw [powers]
  calc (2 : ℚ) ^ numerator.log2 / 2 ^ (denominator.log2 + 1)
      < 2 ^ numerator.log2 / denominator := by gcongr
    _ ≤ numerator / denominator := by gcongr

theorem halfLeast_lt_ratio {numerator denominator : Nat} (filled : numerator ≠ 0)
    (some : 0 < denominator) (above : -1074 < exponentOf numerator denominator) :
    halfLeast < numerator / denominator := by
  have fits := (exponentOf_cases numerator denominator).resolve_left above.ne'
  exact (zpow_le_zpow_right₀ one_le_two (by omega)).trans_lt (lt_ratio filled some)

/-- The significand comes out as zero just for what is no more than half of the least float. -/
theorem significand_eq_zero {numerator denominator top bottom : Nat} (filled : numerator ≠ 0)
    (some : 0 < denominator)
    (scales : scaled numerator denominator (exponentOf numerator denominator) = (top, bottom)) :
    roundQuotient top bottom = 0 ↔ (numerator : ℚ) / denominator ≤ halfLeast := by
  have counts := scaled_pos numerator some (exponentOf numerator denominator)
  have ratio := scaled_ratio numerator denominator (exponentOf numerator denominator)
  rw [scales] at counts ratio
  have half : roundQuotient top bottom = 0 ↔ (top : ℚ) / bottom ≤ 1 / 2 := by
    rw [roundQuotient_eq_zero counts, div_le_div_iff₀ (mod_cast counts) two_pos]
    norm_cast
    rw [Nat.mul_comm, Nat.one_mul]
  have power : (2 : ℚ) ^ (exponentOf numerator denominator - 1) =
      1 / 2 * 2 ^ exponentOf numerator denominator := by
    rw [zpow_sub_one₀ two_ne_zero]
    ring
  rw [half, ratio, div_le_iff₀ (by positivity), ← power]
  rcases exponentOf_cases numerator denominator with lowest | ⟨above, fits⟩
  · rw [lowest, halfLeast]
    norm_num
  · -- A significand of 53 bits is left, so neither side holds.
    have upper : (2 : ℚ) ^ (exponentOf numerator denominator - 1) ≤
        2 ^ ((numerator.log2 : Int) - (denominator.log2 : Int) - 1) :=
      zpow_le_zpow_right₀ one_le_two (by omega)
    exact iff_of_false (upper.trans_lt (lt_ratio filled some)).not_ge
      (halfLeast_lt_ratio filled some above).not_ge

/-- A value has been rounded: its sign is kept, and only the smallest values become zero. -/
structure Rounds (negative : Bool) (size : ℚ) (float : Binary64) : Prop where
  known : float ≠ nan
  sign : float.isNegative = negative
  zero : float.isZero = true ↔ size ≤ halfLeast

section Rounding

variable {negative : Bool} {size : ℚ}

theorem halfLeast_pos : 0 < halfLeast := zpow_pos two_pos _

theorem halfLeast_lt_one : halfLeast < 1 := zpow_lt_one_of_neg₀ one_lt_two (by decide)

theorem tenTo_le_halfLeast : (10 : ℚ) ^ (-400 : Int) ≤ halfLeast := by
  rw [halfLeast, zpow_neg, zpow_neg, zpow_ofNat, zpow_ofNat]
  refine inv_anti₀ (pow_pos two_pos _) ?_
  calc (2 : ℚ) ^ 1075
      ≤ 2 ^ (3 * 400) := pow_le_pow_right₀ one_le_two (by decide)
    _ = (2 ^ 3) ^ 400 := pow_mul _ _ _
    _ ≤ 10 ^ 400 := pow_le_pow_left₀ (by positivity) (by norm_num) _

theorem rounds_zero (small : size ≤ halfLeast) : Rounds negative size (zero negative) :=
  ⟨nofun, rfl, iff_of_true rfl small⟩

theorem rounds_infinite (large : halfLeast < size) : Rounds negative size (infinite negative) :=
  ⟨nofun, rfl, iff_of_false Bool.false_ne_true large.not_ge⟩

theorem rounds_bounded {significand : Nat} {exponent : Int}
    (zero : significand = 0 ↔ size ≤ halfLeast)
    (large : highestExponent < exponent → halfLeast < size) :
    Rounds negative size
      (if highestExponent < exponent then infinite negative
        else finite negative significand exponent) := by
  split
  next beyond => exact rounds_infinite (large beyond)
  next => exact ⟨nofun, rfl, beq_iff_eq.trans zero⟩

theorem rounds_ofFraction (negative : Bool) (numerator : Nat) {denominator : Nat}
    (some : 0 < denominator) :
    Rounds negative (numerator / denominator) (ofFraction negative numerator denominator) := by
  rw [ofFraction]
  split
  next none => exact rounds_zero (by simp [none, halfLeast_pos.le])
  next filled =>
    have large {exponent : Int} (near : exponent ≤ exponentOf numerator denominator + 1)
        (beyond : highestExponent < exponent) : halfLeast < (numerator : ℚ) / denominator :=
      halfLeast_lt_ratio filled some (by simp only [highestExponent] at beyond; omega)
    cases scales : scaled numerator denominator (exponentOf numerator denominator) with
    | mk top bottom =>
        have zero := significand_eq_zero filled some scales
        simp only [scales]
        split
        next full =>
          have filled : twoTo 52 ≠ 0 := (Nat.two_pow_pos 52).ne'
          have some : roundQuotient top bottom ≠ 0 := full ▸ (Nat.two_pow_pos 53).ne'
          exact rounds_bounded (iff_of_false filled (mt zero.mpr some)) (large le_rfl)
        next => exact rounds_bounded zero (large (Int.le_add_one le_rfl))

theorem lt_tenTo_length (coefficient : Nat) :
    (coefficient : ℚ) < 10 ^ (Nat.toDigits 10 coefficient).length := by
  have filled : 0 < (Nat.toDigits 10 coefficient).length := Nat.length_toDigits_pos
  exact mod_cast (Nat.length_toDigits_le_iff (by decide) filled).mp le_rfl

theorem tenTo_length_le {coefficient : Nat} (filled : coefficient ≠ 0) :
    (10 : ℚ) ^ (((Nat.toDigits 10 coefficient).length : Int) - 1) ≤ coefficient := by
  obtain ⟨more, length⟩ := Nat.exists_eq_add_one_of_ne_zero
    (Nat.length_toDigits_pos (b := 10) (n := coefficient)).ne'
  have least : 10 ^ more ≤ coefficient := by
    rcases Nat.eq_zero_or_pos more with rfl | some
    · exact Nat.pos_of_ne_zero filled
    · have longer : ¬(Nat.toDigits 10 coefficient).length ≤ more := by omega
      exact Nat.le_of_not_lt (mt (Nat.length_toDigits_le_iff (by decide) some).mpr longer)
  rw [length, Nat.cast_succ, add_sub_cancel_right, zpow_natCast]
  exact mod_cast least

/-- Powers far outside the range give what rounding would give. -/
theorem rounds_ofDecimal (negative : Bool) (coefficient : Nat) (power : Int) :
    Rounds negative (coefficient * 10 ^ power) (ofDecimal negative coefficient power) := by
  rw [ofDecimal]
  split
  next none => exact rounds_zero (by simp [none, halfLeast_pos.le])
  next filled =>
    split
    next beyond =>
      have large : (1 : ℚ) ≤ coefficient * 10 ^ power :=
        calc (1 : ℚ)
            ≤ 10 ^ (((Nat.toDigits 10 coefficient).length : Int) - 1 + power) :=
              one_le_zpow₀ (by norm_num) (by omega)
          _ = 10 ^ (((Nat.toDigits 10 coefficient).length : Int) - 1) * 10 ^ power :=
              zpow_add₀ (by norm_num) _ _
          _ ≤ coefficient * 10 ^ power := by
              gcongr
              exact tenTo_length_le filled
      exact rounds_infinite (halfLeast_lt_one.trans_le large)
    next =>
      split
      next under =>
        have small : coefficient * 10 ^ power ≤ (10 : ℚ) ^ (-400 : Int) :=
          calc (coefficient : ℚ) * 10 ^ power
              ≤ 10 ^ (Nat.toDigits 10 coefficient).length * 10 ^ power := by
                gcongr
                exact (lt_tenTo_length coefficient).le
            _ = 10 ^ ((Nat.toDigits 10 coefficient).length + power) := by
                rw [zpow_add₀ (by norm_num), zpow_natCast]
            _ ≤ 10 ^ (-400 : Int) := zpow_le_zpow_right₀ (by norm_num) (by omega)
        exact rounds_zero (small.trans tenTo_le_halfLeast)
      next =>
        split
        next below =>
          obtain ⟨places, rfl⟩ := Int.exists_eq_neg_ofNat below.le
          have some : 0 < tenTo places := Nat.pow_pos (by decide)
          have rounded := rounds_ofFraction negative coefficient some
          rw [tenTo_cast, div_eq_mul_inv, ← zpow_natCast, ← zpow_neg] at rounded
          simpa using rounded
        next above =>
          obtain ⟨places, rfl⟩ := Int.eq_ofNat_of_zero_le (Int.not_lt.mp above)
          have rounded := rounds_ofFraction negative (coefficient * tenTo places) Nat.one_pos
          rw [Nat.cast_mul, tenTo_cast, Nat.cast_one, div_one] at rounded
          exact rounded

theorem Rounds.isNonnegative_iff {float : Binary64} (rounds : Rounds negative size float) :
    float.isNonnegative = true ↔ negative = false ∨ size ≤ halfLeast := by
  obtain ⟨known, rfl, zero⟩ := rounds
  rw [← zero]
  cases float with
  | nan => exact absurd rfl known
  | infinite negative => cases negative <;> simp [isNonnegative, isNegative, isZero]
  | finite negative => cases negative <;> simp [isNonnegative, isNegative, isZero]

theorem Rounds.isNonnegative_iff_le {float : Binary64} (rounds : Rounds negative size float)
    (counts : 0 ≤ size) : float.isNonnegative = true ↔ -halfLeast ≤ signed negative size := by
  rw [rounds.isNonnegative_iff]
  cases negative with
  | false =>
      have above : -halfLeast ≤ size := (neg_nonpos.mpr halfLeast_pos.le).trans counts
      simp [signed, above]
  | true => simp [signed]

theorem Rounds.isZero_iff {float : Binary64} (rounds : Rounds negative size float)
    (counts : 0 ≤ size) : float.isZero = true ↔ |signed negative size| ≤ halfLeast := by
  have size_eq : |signed negative size| = size := by
    cases negative <;> simp [signed, abs_of_nonneg counts]
  rw [rounds.zero, size_eq]

end Rounding

end SteeringChannel.Binary64
