import BeaconMap.Number.NumberStyle
import BeaconMap.Proofs.Number.Shortest
/-!
# Written numbers read back

A positional numeral is read from its text (`Numeral.ofText?_text`), and every style writes a double as a numeral that is
rounded to this double (`NumberStyle.toBinary64_numeral`). So the plain text of a finite double names this double
(`Binary64.ofText?_text`), and two finite doubles are written alike only if they are equal bit for bit.
-/

namespace BeaconMap

namespace Numeral

/-- A numeral of digits, at least one of them before the point, and no power of ten. -/
structure Positional (n : Numeral) : Prop where
  nonempty : n.whole ≠ []
  whole : ∀ c ∈ n.whole, c.isDigit = true
  places : ∀ p, n.places = some p → ∀ c ∈ p, c.isDigit = true
  exponent : n.exponent = none

theorem splitDigits_append {digits rest : List Char} (hd : ∀ c ∈ digits, c.isDigit = true)
    (hr : ∀ c ∈ rest.head?, c.isDigit = false) : splitDigits (digits ++ rest) = (digits, rest) := by
  have hrest : rest.takeWhile Char.isDigit = [] ∧ rest.dropWhile Char.isDigit = rest := by
    cases rest with
    | nil => exact ⟨rfl, rfl⟩
    | cons c rest => simp [hr c rfl]
  unfold splitDigits
  rw [List.takeWhile_append_of_pos hd, List.dropWhile_append_of_pos hd, hrest.1, hrest.2, List.append_nil]

theorem splitSign_digits {digits : List Char} (hne : digits ≠ []) (hd : ∀ c ∈ digits, c.isDigit = true)
    (rest : List Char) : splitSign (digits ++ rest) = (false, digits ++ rest) := by
  obtain ⟨c, digits, rfl⟩ := List.exists_cons_of_ne_nil hne
  have hc := hd c List.mem_cons_self
  unfold splitSign
  split
  · rename_i h
    cases h
    cases hc
  · rename_i h
    cases h
    cases hc
  · rfl

/-- The point and the digits after it, if there is one. -/
def placesText (n : Numeral) : List Char := n.places.elim [] fun p => '.' :: p

theorem toList_text {n : Numeral} (h : n.exponent = none) :
    n.text.toList = (if n.negative then ['-'] else []) ++ (n.whole ++ n.placesText) := by
  unfold text placesText
  rw [h]
  cases n.places <;> cases n.negative <;> simp

theorem splitSign_text {n : Numeral} (h : n.Positional) :
    splitSign n.text.toList = (n.negative, n.whole ++ n.placesText) := by
  rw [toList_text h.exponent]
  cases n.negative with
  | true => rfl
  | false => exact splitSign_digits h.nonempty h.whole _

/-- A positional numeral is read from its text. -/
theorem ofText?_text {n : Numeral} (h : n.Positional) : ofText? n.text = some n := by
  have hpoint : ∀ c ∈ n.placesText.head?, c.isDigit = false := by
    unfold placesText
    cases n.places <;> simp
  have hwhole : n.whole.isEmpty = false := List.isEmpty_eq_false_iff.2 h.nonempty
  unfold ofText?
  simp only [splitSign_text h, splitDigits_append h.whole hpoint, hwhole, Bool.false_and, Bool.false_eq_true, if_false]
  obtain ⟨negative, whole, places, exponent⟩ := n
  obtain rfl : exponent = none := h.exponent
  cases places with
  | none => rfl
  | some p =>
    have hp : splitDigits p = (p, []) := by
      have hsplit : splitDigits (p ++ []) = (p, []) := splitDigits_append (h.places p rfl) (by simp)
      rwa [List.append_nil] at hsplit
    simp only [placesText, Option.elim_some, hp]

end Numeral

/-! ## Plain style -/

namespace NumberStyle

open Decimal Numeral

theorem isDigit_toDigits (n : Nat) : ∀ c ∈ Nat.toDigits 10 n, c.isDigit = true :=
  fun _ hc => Nat.isDigit_of_mem_toDigits (by decide) (by decide) hc

theorem isDigit_zeros (n : Nat) : ∀ c ∈ List.replicate n '0', c.isDigit = true := by
  intro c hc
  rw [List.eq_of_mem_replicate hc]
  rfl

theorem positional_inPlace (negative : Bool) {digits : List Char} (hne : digits ≠ [])
    (hd : ∀ c ∈ digits, c.isDigit = true) (before : Int) : (plain.inPlace negative digits before).Positional := by
  unfold inPlace
  split
  · refine ⟨by simp, by simp, ?_, rfl⟩
    rintro p ⟨⟩ c hc
    rcases List.mem_append.1 hc with hc | hc
    · exact isDigit_zeros _ c hc
    · exact hd c hc
  · rename_i hpos
    dsimp only
    split
    · refine ⟨by simp [hne], fun c hc => ?_, ?_, rfl⟩
      · rcases List.mem_append.1 hc with hc | hc
        · exact hd c hc
        · exact isDigit_zeros _ c hc
      · rintro p ⟨⟩
    · refine ⟨?_, fun c hc => hd c (List.mem_of_mem_take hc), ?_, rfl⟩
      · simp only [ne_eq, List.take_eq_nil_iff, hne, or_false]
        omega
      · rintro p ⟨⟩ c hc
        exact hd c (List.mem_of_mem_drop hc)

theorem positional_plain (d : Decimal) : (plain.ofDecimal d).Positional := by
  unfold ofDecimal
  split
  · refine ⟨by simp, by simp, ?_, rfl⟩
    rintro p ⟨⟩
  · exact positional_inPlace _ Nat.toDigits_ne_nil (isDigit_toDigits _) _

/-! ## Every style -/

section
variable (style : NumberStyle)

/-- Digits written in place with the point inside or before them. -/
theorem value_inPlace_fraction (negative : Bool) (digits : List Char) {e : Int} (he : e < 0) :
    (style.inPlace negative digits (digits.length + e)).value = ⟨negative, Nat.ofDigitChars 10 digits 0, e⟩ := by
  unfold inPlace
  split
  · have hzero : Nat.ofDigitChars 10 ['0'] 0 = 0 := rfl
    simp only [Numeral.value, Option.getD_some, Option.getD_none, Nat.ofDigitChars_append, hzero,
      Nat.ofDigitChars_replicate_zero, Nat.mul_zero, List.length_append, List.length_replicate, Decimal.mk.injEq,
      true_and]
    omega
  · dsimp only
    rw [if_neg (by omega)]
    simp only [Numeral.value, Option.getD_some, Option.getD_none, List.take_append_drop, List.length_drop,
      Decimal.mk.injEq, true_and]
    omega

/-- Digits written in place with zeros behind them; the point adds one more zero. -/
theorem value_inPlace_whole (negative : Bool) {digits : List Char} (hne : digits ≠ []) (k : Nat) :
    ∃ j : Nat, (style.inPlace negative digits (digits.length + k)).value =
      ⟨negative, Nat.ofDigitChars 10 digits 0 * 10 ^ (k + j), -j⟩ := by
  have hlen : 0 < digits.length := List.length_pos_iff.2 hne
  have hzeros : ((digits.length : Int) + k).toNat - digits.length = k := by omega
  unfold inPlace
  rw [if_neg (by omega)]
  dsimp only
  rw [if_pos (by omega), hzeros]
  cases style.point with
  | true =>
    have hzero (m : Nat) : Nat.ofDigitChars 10 ['0'] m = 10 * m := rfl
    refine ⟨1, ?_⟩
    simp only [if_true, Numeral.value, Option.getD_some, Option.getD_none, Nat.ofDigitChars_append, hzero,
      Nat.ofDigitChars_replicate_zero, Decimal.mk.injEq, true_and]
    exact ⟨by ring, rfl⟩
  | false =>
    refine ⟨0, ?_⟩
    simp only [Bool.false_eq_true, if_false, Numeral.value, Option.getD_none, List.append_nil,
      Nat.ofDigitChars_append, Nat.ofDigitChars_replicate_zero, Decimal.mk.injEq, true_and]
    exact ⟨Nat.mul_comm _ _, rfl⟩

theorem value_withExponent (negative : Bool) {digits : List Char} (hne : digits ≠ []) (e : Int) :
    (withExponent negative digits (digits.length + e)).value = ⟨negative, Nat.ofDigitChars 10 digits 0, e⟩ := by
  obtain ⟨c, rest, rfl⟩ := List.exists_cons_of_ne_nil hne
  unfold withExponent
  cases rest with
  | nil => simp [Numeral.value]
  | cons d rest =>
    have hlong : ¬ (c :: d :: rest).length ≤ 1 := by simp
    simp only [hlong, if_false, Numeral.value, Option.getD_some, List.take_append_drop, List.length_drop,
      Decimal.mk.injEq, true_and]
    omega

theorem toBinary64_inPlace (negative : Bool) {n : Nat} (hn : n ≠ 0) (e : Int) :
    (style.inPlace negative (Nat.toDigits 10 n) ((Nat.toDigits 10 n).length + e)).toBinary64 =
      (Decimal.mk negative n e).toBinary64 := by
  have hdigits : Nat.ofDigitChars 10 (Nat.toDigits 10 n) 0 = n := Nat.ofDigitChars_ten_toDigits
  unfold Numeral.toBinary64
  rcases lt_or_ge e 0 with he | he
  · rw [value_inPlace_fraction style negative _ he, hdigits]
  · obtain ⟨k, rfl⟩ := Int.eq_ofNat_of_zero_le he
    obtain ⟨j, hvalue⟩ := style.value_inPlace_whole negative (Nat.toDigits_ne_nil (n := n) (b := 10)) k
    rw [hvalue, hdigits, toBinary64_mul_pow negative hn, show -(j : Int) + (k + j : Nat) = k by omega]

/-- In every style a decimal is written as a numeral that is rounded as it. -/
theorem toBinary64_ofDecimal (d : Decimal) : (style.ofDecimal d).toBinary64 = d.toBinary64 := by
  obtain ⟨negative, n, e⟩ := d
  unfold ofDecimal
  by_cases hn : n = 0
  · subst hn
    rw [if_pos rfl, toBinary64_zero]
    have hcoefficient : Nat.ofDigitChars 10 (['0'] ++ ((if style.point then some ['0'] else none).getD [])) 0 = 0 := by
      cases style.point <;> rfl
    unfold Numeral.toBinary64 Numeral.value
    dsimp only
    rw [hcoefficient]
    exact toBinary64_zero negative _
  rw [if_neg hn]
  have hdigits : Nat.ofDigitChars 10 (Nat.toDigits 10 n) 0 = n := Nat.ofDigitChars_ten_toDigits
  dsimp only
  split
  · exact style.toBinary64_inPlace negative hn e
  · split
    · exact style.toBinary64_inPlace negative hn e
    · rw [Numeral.toBinary64, value_withExponent negative Nat.toDigits_ne_nil, hdigits]

/-- In every style a finite double is written as a numeral that is rounded to it. -/
theorem toBinary64_numeral {x : Binary64} (h : x.isFinite = true) : (style.numeral x).toBinary64 = x := by
  unfold numeral
  rw [toBinary64_ofDecimal]
  exact Shortest.toBinary64_decimal _ h

end

end NumberStyle

namespace Binary64

theorem isFinite_not_nan {x : Binary64} (h : x.isFinite = true) : x.isNaN = false := by
  have hne := (isFinite_iff x).1 h
  simp only [isNaN, Bool.and_eq_false_iff, beq_eq_false_iff_ne]
  left
  omega

theorem text_of_isFinite {x : Binary64} (h : x.isFinite = true) : x.text = (NumberStyle.plain.numeral x).text := by
  unfold text NumberStyle.text
  rw [isFinite_not_nan h, h]
  rfl

/-- The text of a finite number names this number and no other: not even `0` and `-0` are written alike. -/
theorem ofText?_text {x : Binary64} (h : x.isFinite = true) : ofText? x.text = some x := by
  have hread : Numeral.ofText? x.text = some (NumberStyle.plain.numeral x) := by
    rw [text_of_isFinite h]
    exact Numeral.ofText?_text (NumberStyle.positional_plain _)
  have hvalue : (NumberStyle.plain.numeral x).toBinary64 = x := NumberStyle.plain.toBinary64_numeral h
  have hname (name : String) (hn : Numeral.ofText? name = none) : x.text ≠ name := by
    rintro rfl
    rw [hread] at hn
    cases hn
  unfold ofText?
  rw [if_neg (hname _ (by decide +kernel)), if_neg (hname _ (by decide +kernel)), if_neg (hname _ (by decide +kernel)),
    hread, Option.map_some, hvalue]

theorem text_inj {x y : Binary64} (hx : x.isFinite = true) (hy : y.isFinite = true) : x.text = y.text ↔ x = y := by
  constructor
  · intro h
    have hsome := ofText?_text hx
    rw [h, ofText?_text hy] at hsome
    exact (Option.some.inj hsome).symm
  · exact congrArg text

end Binary64

end BeaconMap
