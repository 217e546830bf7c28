import BeaconMap.Number.Shortest
import BeaconMap.Proofs.Number.Nearest
/-!
# The shortest decimal reads back

Whatever grid it comes from, the decimal that stands for a finite double is rounded to this double again, its sign
included (`toBinary64_decimal`).
-/

namespace BeaconMap

namespace Decimal

theorem digitCount_le_iff (n : Nat) {k : Nat} (h : 0 < k) : digitCount n ≤ k ↔ n < 10 ^ k :=
  Nat.length_toDigits_le_iff (by decide) h

theorem toBinary64_zero (negative : Bool) (exponent : Int) :
    (Decimal.mk negative 0 exponent).toBinary64 = .zero negative := by
  simp [toBinary64]

/-- A decimal within the range of the doubles is rounded as the quotient it stands for. -/
theorem toBinary64_eq_nearest {d : Decimal} (hc : d.coefficient ≠ 0)
    (hlow : -323 ≤ digitCount d.coefficient + d.exponent) (hhigh : digitCount d.coefficient + d.exponent ≤ 309) :
    d.toBinary64 = .nearest d.negative (d.coefficient * 10 ^ d.exponent.toNat) (10 ^ (-d.exponent).toNat) := by
  obtain ⟨negative, coefficient, exponent⟩ := d
  dsimp only at hc hlow hhigh
  simp only [toBinary64, hc, not_lt.2 hlow, not_lt.2 hhigh, or_self, if_false]
  cases exponent with
  | ofNat e =>
    have hneg : (-Int.ofNat e).toNat = 0 := by simp
    rw [hneg, pow_zero]
    rfl
  | negSucc e =>
    have hpos : (Int.negSucc e).toNat = 0 := rfl
    rw [hpos, pow_zero, mul_one]
    rfl

/-- So a fraction that is a double is rounded to it. -/
theorem toBinary64_of_exact {x : Binary64} (h : x.isFinite = true) {coefficient n : Nat} (hc : coefficient ≠ 0)
    (hlow : n ≤ digitCount coefficient + 323) (hhigh : digitCount coefficient ≤ n + 309)
    (he : coefficient * Binary64.unit = x.magnitude * 10 ^ n) :
    (Decimal.mk x.negative coefficient (-n)).toBinary64 = x := by
  have hpos : (-(n : Int)).toNat = 0 := by omega
  have hneg : (-(-(n : Int))).toNat = n := by omega
  rw [toBinary64_eq_nearest hc (by dsimp only; omega) (by dsimp only; omega)]
  dsimp only
  rw [hpos, hneg, pow_zero, mul_one]
  exact Binary64.nearest_of_exact h (Nat.pow_pos (by decide)) he

/-- Shifting the point of a whole number is writing zeros behind it. -/
theorem digitCount_mul_pow {n : Nat} (h : n ≠ 0) (k : Nat) : digitCount (n * 10 ^ k) = digitCount n + k := by
  induction k with
  | zero => simp
  | succ k ih =>
    have hpos : 0 < n * 10 ^ k := Nat.mul_pos (Nat.pos_of_ne_zero h) (Nat.pow_pos (by decide))
    have hten : n * 10 ^ (k + 1) = 10 * (n * 10 ^ k) + 0 := by ring
    have hdigits : Nat.toDigits 10 (n * 10 ^ (k + 1)) = Nat.toDigits 10 (n * 10 ^ k) ++ Nat.toDigits 10 0 := by
      rw [hten, Nat.toDigits_append_toDigits (by decide) hpos (by decide)]
    unfold digitCount at ih ⊢
    rw [hdigits, List.length_append, ih]
    rfl

/-- Zeros behind the coefficient are powers of ten. -/
theorem toBinary64_mul_pow (negative : Bool) {n : Nat} (h : n ≠ 0) (k : Nat) (e : Int) :
    (Decimal.mk negative (n * 10 ^ k) e).toBinary64 = (Decimal.mk negative n (e + k)).toBinary64 := by
  have hk : n * 10 ^ k ≠ 0 := Nat.mul_ne_zero h (Nat.pow_pos (by decide)).ne'
  have hsize : (digitCount (n * 10 ^ k) : Int) + e = digitCount n + (e + k) := by
    rw [digitCount_mul_pow h]
    push_cast
    ring
  by_cases hlow : -323 ≤ (digitCount n : Int) + (e + k)
  · by_cases hhigh : (digitCount n : Int) + (e + k) ≤ 309
    · have hpow : k + e.toNat + (-(e + k)).toNat = (e + k).toNat + (-e).toNat := by omega
      rw [toBinary64_eq_nearest (d := ⟨negative, n * 10 ^ k, e⟩) hk (by rwa [hsize]) (by rwa [hsize]),
        toBinary64_eq_nearest (d := ⟨negative, n, e + k⟩) h hlow hhigh]
      refine Binary64.nearest_congr _ (Nat.pow_pos (by decide)) (Nat.pow_pos (by decide)) ?_
      dsimp only
      rw [mul_assoc, mul_assoc, mul_assoc, ← pow_add, ← pow_add, ← pow_add, ← add_assoc, hpow]
    · simp only [toBinary64, h, hk, hsize, not_lt.2 hlow, not_le.1 hhigh, or_self, if_false, if_true]
  · simp only [toBinary64, h, hk, hsize, not_le.1 hlow, or_true, if_true]

end Decimal

namespace Shortest

open Decimal

theorem toBinary64_allDigits {x : Binary64} (h : x.isFinite = true) (hm : x.magnitude ≠ 0) :
    (allDigits x).toBinary64 = x := by
  have hpow (n : Nat) : x.magnitude * Nat.pow 5 n * Nat.pow 2 n = x.magnitude * 10 ^ n := by
    simp only [Nat.pow_eq]
    rw [Nat.mul_assoc, ← Nat.mul_pow]
  have hlt : x.magnitude < 2 ^ 53 * 2 ^ 2045 := by
    have he := (Binary64.isFinite_iff x).1 h
    exact Binary64.magnitude_lt x (by omega)
  have hlow : 10 ^ 750 ≤ Nat.pow 5 1074 := by decide +kernel
  have hhigh : 2 ^ 53 * 2 ^ 2045 * Nat.pow 5 1074 ≤ 10 ^ 1383 := by decide +kernel
  have hexact : x.magnitude * Nat.pow 5 1074 * Binary64.unit = x.magnitude * 10 ^ 1074 := by
    unfold Binary64.unit
    -- The exponent is put out of sight, so that the powers are not computed.
    generalize 1074 = n
    exact hpow n
  unfold allDigits
  generalize Nat.pow 5 1074 = five at *
  have hpos : 0 < five := (Nat.pow_pos (by decide)).trans_le hlow
  have hmany : 751 ≤ digitCount (x.magnitude * five) := by
    rw [Nat.succ_le_iff, ← not_le, digitCount_le_iff _ (by decide), not_lt]
    exact hlow.trans (Nat.le_mul_of_pos_left _ (Nat.pos_of_ne_zero hm))
  have hfew : digitCount (x.magnitude * five) ≤ 1383 := by
    rw [digitCount_le_iff _ (by decide)]
    exact (Nat.mul_lt_mul_of_pos_right hlt hpos).trans_le hhigh
  exact toBinary64_of_exact h (Nat.mul_ne_zero hm hpos.ne') (n := 1074) (by omega) (by omega) hexact

theorem zero_of_magnitude {x : Binary64} (h : x.isFinite = true) (hm : x.magnitude = 0) :
    Binary64.zero x.negative = x := by
  have hword : x.exponentField * 2 ^ 52 + x.fraction = 0 := by
    unfold Binary64.magnitude at hm
    simp only [Nat.pow_eq] at hm
    split at hm
    · omega
    · rcases Nat.mul_eq_zero.1 hm with hm | hm
      · omega
      · exact absurd hm (Nat.two_pow_pos _).ne'
  rw [Binary64.zero, ← hword, Binary64.ofWord_fields h]

theorem toBinary64_of_onGrid {ties : TieRule} {x : Binary64} {power : Int} {d : Decimal}
    (h : onGrid ties x power = some d) : d.toBinary64 = x := by
  unfold onGrid at h
  simp only [readsBack] at h
  split at h
  · rename_i hlow hnext
    split at h
    all_goals
      cases h
      exact eq_of_beq (by assumption)
  · cases h
    exact eq_of_beq (by assumption)
  · cases h
    exact eq_of_beq (by assumption)
  · cases h

/-- The shortest decimal of a finite number reads back as the number, its sign included. -/
theorem toBinary64_decimal (ties : TieRule) {x : Binary64} (h : x.isFinite = true) :
    (decimal ties x).toBinary64 = x := by
  unfold decimal
  by_cases hm : x.magnitude = 0
  · rw [if_pos hm, toBinary64_zero]
    exact zero_of_magnitude h hm
  · rw [if_neg hm]
    dsimp only
    cases hs : (List.range 18).findSome? fun (n : Nat) => onGrid ties x (leadingPower x + 1 - n) with
    | none =>
      rw [Option.getD_none]
      exact toBinary64_allDigits h hm
    | some d =>
      obtain ⟨n, -, hn⟩ := List.exists_of_findSome?_eq_some hs
      exact toBinary64_of_onGrid hn

end Shortest

end BeaconMap
