import BeaconMap.Number.Binary64
import Mathlib
/-!
# The number a double stands for

A finite double stands for a rational number, its `value`. The checks of the library are comparisons of
values: `isNonNegative_iff`, `isPercentage_iff` and `isZero_iff` say which.
-/

namespace BeaconMap.Binary64

/-- The number that a finite double stands for. -/
def value (x : Binary64) : ℚ := x.scaled / unit

/-- A finite number that is not below 0. -/
def NonNegative (x : Binary64) : Prop := x.isFinite = true ∧ 0 ≤ x.value

/-- A finite number from 0 to 100. -/
def Percentage (x : Binary64) : Prop := x.isFinite = true ∧ 0 ≤ x.value ∧ x.value ≤ 100

/-- The number 0, whatever its sign bit. -/
def Zero (x : Binary64) : Prop := x.isFinite = true ∧ x.value = 0

theorem unit_pos : 0 < (unit : ℚ) := by
  have h : 0 < unit := by
    -- The exponent is put out of sight, so that the power is not computed.
    unfold unit
    generalize 1074 = n
    exact Nat.pow_pos Nat.two_pos
  exact_mod_cast h

theorem value_nonneg_iff (x : Binary64) : 0 ≤ x.value ↔ 0 ≤ x.scaled := by
  rw [value, le_div_iff₀ unit_pos, zero_mul]
  exact_mod_cast Iff.rfl

theorem value_eq_zero_iff (x : Binary64) : x.value = 0 ↔ x.scaled = 0 := by
  rw [value, div_eq_zero_iff, or_iff_left unit_pos.ne']
  exact_mod_cast Iff.rfl

theorem value_le_iff (x : Binary64) (n : Nat) : x.value ≤ n ↔ x.scaled ≤ ((n * unit : Nat) : Int) := by
  rw [value, div_le_iff₀ unit_pos]
  exact_mod_cast Iff.rfl

theorem scaled_eq_zero_iff (x : Binary64) : x.scaled = 0 ↔ x.magnitude = 0 := by
  unfold scaled
  split <;> omega

/-- A number that is not below zero is its own magnitude, `-0` included. -/
theorem scaled_of_nonneg {x : Binary64} (h : 0 ≤ x.scaled) : x.scaled = x.magnitude := by
  unfold scaled at h ⊢
  split at h <;> simp_all

theorem isNonNegative_iff (x : Binary64) : x.isNonNegative = true ↔ x.NonNegative := by
  simp [isNonNegative, NonNegative, value_nonneg_iff]

theorem isPercentage_iff (x : Binary64) : x.isPercentage = true ↔ x.Percentage := by
  have hle := value_le_iff x 100
  push_cast at hle
  simp only [isPercentage, isNonNegative, Percentage, Bool.and_eq_true, decide_eq_true_eq, and_assoc,
    value_nonneg_iff, hle]
  refine and_congr_right fun _ => and_congr_right fun h => ?_
  rw [scaled_of_nonneg h]
  exact_mod_cast Iff.rfl

theorem isZero_iff (x : Binary64) : x.isZero = true ↔ x.Zero := by
  simp [isZero, Zero, value_eq_zero_iff, scaled_eq_zero_iff]

end BeaconMap.Binary64
