import BeaconMap.Number.Numeral
import Mathlib
/-!
# Exact numbers are not rounded

A double is made of its fields, and a quotient that is a double is its own nearest double (`nearest_of_exact`).
-/

namespace BeaconMap.Binary64

/-! ## A double is its fields -/

theorem isFinite_iff (x : Binary64) : x.isFinite = true ↔ x.exponentField < 2047 := by
  have h : x.exponentField < Nat.pow 2 11 := Nat.mod_lt _ (by decide)
  simp only [isFinite, bne_iff_ne, Nat.pow_eq, Nat.reducePow] at h ⊢
  omega

theorem fraction_lt (x : Binary64) : x.fraction < 2 ^ 52 := Nat.mod_lt _ (by decide)

/-- The word of a finite number without its sign bit. -/
theorem ofWord_fields {x : Binary64} (h : x.isFinite = true) :
    ofWord x.negative (x.exponentField * 2 ^ 52 + x.fraction) = x := by
  have hfin := (isFinite_iff x).1 h
  obtain ⟨bits⟩ := x
  have hbits := bits.toNat_lt
  simp only [ofWord, negative, exponentField, fraction, Nat.pow_eq, Nat.reducePow, decide_eq_true_eq,
    Binary64.mk.injEq] at hfin ⊢
  apply UInt64.toNat_inj.1
  rw [UInt64.toNat_ofNat', min_eq_left (by omega)]
  split <;> omega

/-! ## Rounding -/

theorem roundHalfEven_mul (m : Nat) {den : Nat} (h : 0 < den) : roundHalfEven (m * den) den = m := by
  simp [roundHalfEven, Nat.mul_div_cancel m h, h]

theorem roundHalfEven_mul_right (num den : Nat) {c : Nat} (h : 0 < c) :
    roundHalfEven (num * c) (den * c) = roundHalfEven num den := by
  have hexcess : 2 * (num % den * c) = 2 * (num % den) * c := (Nat.mul_assoc _ _ _).symm
  simp only [roundHalfEven, Nat.mul_div_mul_right _ _ h, Nat.mul_mod_mul_right, hexcess, Nat.mul_lt_mul_right h,
    Nat.mul_left_inj h.ne']

theorem nearest_mul_right (isNegative : Bool) (num den : Nat) {c : Nat} (h : 0 < c) :
    nearest isNegative (num * c) (den * c) = nearest isNegative num den := by
  have hnum : num * c * unit = num * unit * c := Nat.mul_right_comm _ _ _
  have hden (k : Nat) : den * c * k = den * k * c := Nat.mul_right_comm _ _ _
  simp only [nearest, hnum, hden, Nat.mul_div_mul_right _ _ h, roundHalfEven_mul_right _ _ h]

/-- Equal quotients have the same nearest number. -/
theorem nearest_congr (isNegative : Bool) {num den num' den' : Nat} (hden : 0 < den) (hden' : 0 < den')
    (h : num * den' = num' * den) : nearest isNegative num den = nearest isNegative num' den' := by
  rw [← nearest_mul_right isNegative num den hden', h, Nat.mul_comm den den',
    nearest_mul_right isNegative num' den' hden]

/-- The power of two by which a number of units is shortened to a significand. -/
def shift (units : Nat) : Nat := if units < 2 ^ 53 then 0 else units.log2 - 52

theorem shift_of_lt {m : Nat} (h : m < 2 ^ 53) : shift m = 0 := if_pos h

/-- A significand of 53 bits over a power of two is shortened by just this power. -/
theorem shift_mul_pow {s : Nat} (hlow : 2 ^ 52 ≤ s) (hhigh : s < 2 ^ 53) (k : Nat) : shift (s * 2 ^ k) = k := by
  rcases Nat.eq_zero_or_pos k with rfl | hk
  · rw [pow_zero, mul_one, shift_of_lt hhigh]
  have hle : 2 ^ (52 + k) ≤ s * 2 ^ k := by
    rw [pow_add]
    exact Nat.mul_le_mul_right _ hlow
  have hlt : s * 2 ^ k < 2 ^ (52 + k + 1) := by
    rw [show 52 + k + 1 = 53 + k by omega, pow_add]
    exact Nat.mul_lt_mul_of_pos_right hhigh (Nat.two_pow_pos k)
  have hbig : 2 ^ 53 ≤ s * 2 ^ k := (Nat.pow_le_pow_right Nat.two_pos (by omega)).trans hle
  have hlog : (s * 2 ^ k).log2 = 52 + k := (Nat.log2_eq_iff (by omega)).2 ⟨hle, hlt⟩
  rw [shift, if_neg (by omega), hlog]
  omega

/-- The units of a double are a significand over the power of two that rounding takes; its word is made of both. -/
theorem magnitude_eq_shifted (x : Binary64) :
    ∃ s, x.magnitude = s * 2 ^ shift x.magnitude ∧
      shift x.magnitude * 2 ^ 52 + s = x.exponentField * 2 ^ 52 + x.fraction := by
  have hf := fraction_lt x
  unfold magnitude
  simp only [Nat.pow_eq]
  rcases he : x.exponentField with _ | e
  · have hs : shift x.fraction = 0 := shift_of_lt (by omega)
    exact ⟨x.fraction, by simp [hs], by simp [hs]⟩
  · have hs : shift ((2 ^ 52 + x.fraction) * 2 ^ e) = e := shift_mul_pow (by omega) (by omega) e
    refine ⟨2 ^ 52 + x.fraction, ?_, ?_⟩
    · rw [if_neg (by omega), Nat.add_sub_cancel, hs]
    · rw [if_neg (by omega), Nat.add_sub_cancel, hs]
      ring

/-- A quotient that is a double is its own nearest double. -/
theorem nearest_of_exact {x : Binary64} (h : x.isFinite = true) {num den : Nat} (hden : 0 < den)
    (he : num * unit = x.magnitude * den) : nearest x.negative num den = x := by
  obtain ⟨s, hs, hword⟩ := magnitude_eq_shifted x
  have hnearest : nearest x.negative num den =
      ofWord x.negative (shift x.magnitude * 2 ^ 52 +
        roundHalfEven (x.magnitude * den) (den * 2 ^ shift x.magnitude)) := by
    simp only [nearest, he, Nat.mul_div_cancel _ hden, shift, Nat.pow_eq]
  have hsplit : x.magnitude * den = s * (den * 2 ^ shift x.magnitude) := by
    calc x.magnitude * den = s * 2 ^ shift x.magnitude * den := by rw [← hs]
      _ = s * (den * 2 ^ shift x.magnitude) := by ring
  rw [hnearest, hsplit, roundHalfEven_mul s (Nat.mul_pos hden (Nat.two_pow_pos _)), hword, ofWord_fields h]

theorem magnitude_lt (x : Binary64) {k : Nat} (h : x.exponentField ≤ k + 1) : x.magnitude < 2 ^ 53 * 2 ^ k := by
  have hf := fraction_lt x
  unfold magnitude
  simp only [Nat.pow_eq]
  split
  · calc x.fraction < 2 ^ 53 * 1 := by omega
      _ ≤ 2 ^ 53 * 2 ^ k := Nat.mul_le_mul_left _ Nat.one_le_two_pow
  · calc (2 ^ 52 + x.fraction) * 2 ^ (x.exponentField - 1) < 2 ^ 53 * 2 ^ (x.exponentField - 1) :=
          Nat.mul_lt_mul_of_pos_right (by omega) (Nat.two_pow_pos _)
      _ ≤ 2 ^ 53 * 2 ^ k := Nat.mul_le_mul_left _ (Nat.pow_le_pow_right Nat.two_pos (by omega))

end BeaconMap.Binary64
