import BeaconMap.Json.Printer
import BeaconMap.Json.Reader
import BeaconMap.Proofs.Number.Text
/-!
# Strings and numbers read back

The reader takes a written string up to its closing mark and finds the characters it was written for
(`JsonReader.string_stringText`). It takes a written number as long as what follows cannot belong to a number, and finds
the numeral digit by digit (`JsonReader.numeral?_text`), if the numeral is one that JSON can write (`Numeral.Json`).
-/

namespace BeaconMap

open Numeral

/-! ## Numerals that JSON can write -/

namespace Numeral

/-- A numeral as JSON has it: no zero before other digits of the whole part, and no point without a digit behind it. -/
structure Json (n : Numeral) : Prop where
  nonempty : n.whole ≠ []
  whole : ∀ c ∈ n.whole, c.isDigit = true
  leading : n.whole.head? = some '0' → n.whole = ['0']
  places : ∀ p, n.places = some p → p ≠ [] ∧ ∀ c ∈ p, c.isDigit = true

/-- The sign of a power of ten as it is written. -/
def powerSign (power : Int) : Char := if power < 0 then '-' else '+'

/-- The power of ten as it is written, if there is one. -/
def powerText (n : Numeral) : List Char :=
  n.exponent.elim [] fun power => 'e' :: powerSign power :: Nat.toDigits 10 power.natAbs

theorem toList_power (power : Int) :
    (if power < 0 then "e" else "e+").toList ++ power.repr.toList =
      'e' :: powerSign power :: Nat.toDigits 10 power.natAbs := by
  rw [Int.repr_eq_if, powerSign]
  by_cases h : power < 0
  · rw [if_pos h, if_pos h, if_neg (by omega), show (-power).toNat = power.natAbs by omega]
    simp
  · rw [if_neg h, if_neg h, if_pos (by omega), show power.toNat = power.natAbs by omega]
    simp

theorem toList_text_parts (n : Numeral) :
    n.text.toList = (if n.negative then ['-'] else []) ++ (n.whole ++ (n.placesText ++ n.powerText)) := by
  obtain ⟨negative, whole, places, exponent⟩ := n
  unfold text placesText powerText
  cases exponent with
  | none => cases places <;> cases negative <;> simp
  | some power =>
    simp only [String.toList_append, Option.elim_some, toList_power]
    cases places <;> cases negative <;> simp

/-- Only zero is written with a leading zero. -/
theorem head?_toDigits {n : Nat} (h : (Nat.toDigits 10 n).head? = some '0') : n = 0 := by
  induction n using Nat.strong_induction_on with
  | h n ih =>
    rw [Nat.toDigits_eq_if (by decide)] at h
    by_cases hlt : n < 10
    · rw [if_pos hlt] at h
      interval_cases n <;> first | rfl | cases h
    · rw [if_neg hlt, List.head?_append_of_ne_nil _ Nat.toDigits_ne_nil] at h
      have hzero := ih (n / 10) (by omega) h
      omega

theorem leading_toDigits {n : Nat} (h : (Nat.toDigits 10 n).head? = some '0') : Nat.toDigits 10 n = ['0'] := by
  rw [head?_toDigits h]
  rfl

/-- Integers are written as JSON has them. -/
theorem json_toDigits (negative : Bool) (n : Nat) : Json ⟨negative, Nat.toDigits 10 n, none, none⟩ where
  nonempty := Nat.toDigits_ne_nil
  whole := NumberStyle.isDigit_toDigits n
  leading := leading_toDigits
  places p hp := by cases hp

end Numeral

/-! ## Document style -/

namespace NumberStyle

theorem json_inPlace {style : NumberStyle} (negative : Bool) {digits : List Char} (hne : digits ≠ [])
    (hd : ∀ c ∈ digits, c.isDigit = true) (hlead : digits.head? ≠ some '0') (before : Int) :
    Numeral.Json (style.inPlace negative digits before) := by
  unfold inPlace
  split
  · refine ⟨by simp, by simp, fun _ => rfl, ?_⟩
    rintro p ⟨⟩
    refine ⟨by simp [hne], fun c hc => ?_⟩
    rcases List.mem_append.1 hc with hc | hc
    · exact isDigit_zeros _ c hc
    · exact hd c hc
  · rename_i hpos
    dsimp only
    split
    · refine ⟨by simp [hne], fun c hc => ?_, fun h => ?_, fun p hp => ?_⟩
      · rcases List.mem_append.1 hc with hc | hc
        · exact hd c hc
        · exact isDigit_zeros _ c hc
      · rw [List.head?_append_of_ne_nil _ hne] at h
        exact absurd h hlead
      · dsimp only at hp
        split at hp
        · cases hp
          simp
        · cases hp
    · rename_i hlong
      have hsome : before.toNat ≠ 0 := by omega
      refine ⟨by simp [hne, hsome], fun c hc => hd c (List.mem_of_mem_take hc), fun h => ?_, ?_⟩
      · rw [List.head?_take, if_neg hsome] at h
        exact absurd h hlead
      · rintro p ⟨⟩
        refine ⟨?_, fun c hc => hd c (List.mem_of_mem_drop hc)⟩
        rw [ne_eq, List.drop_eq_nil_iff]
        omega

theorem json_withExponent (negative : Bool) {digits : List Char} (hne : digits ≠ [])
    (hd : ∀ c ∈ digits, c.isDigit = true) (hlead : digits.head? ≠ some '0') (before : Int) :
    Numeral.Json (withExponent negative digits before) := by
  unfold withExponent
  refine ⟨by simp [hne], fun c hc => hd c (List.mem_of_mem_take hc), fun h => ?_, fun p hp => ?_⟩
  · rw [List.head?_take, if_neg (by decide)] at h
    exact absurd h hlead
  · dsimp only at hp
    split at hp
    · cases hp
    · rename_i hlong
      cases hp
      refine ⟨?_, fun c hc => hd c (List.mem_of_mem_drop hc)⟩
      rw [ne_eq, List.drop_eq_nil_iff]
      exact hlong

/-- Every style writes decimals as JSON has them. -/
theorem json_ofDecimal (style : NumberStyle) (d : Decimal) : Numeral.Json (style.ofDecimal d) := by
  unfold ofDecimal
  split
  · refine ⟨by simp, by simp, fun _ => rfl, fun p hp => ?_⟩
    dsimp only at hp
    split at hp
    · cases hp
      simp
    · cases hp
  · rename_i hc
    have hne : Nat.toDigits 10 d.coefficient ≠ [] := Nat.toDigits_ne_nil
    have hlead : (Nat.toDigits 10 d.coefficient).head? ≠ some '0' := fun h => hc (head?_toDigits h)
    dsimp only
    split
    · exact json_inPlace _ hne (isDigit_toDigits _) hlead _
    · split
      · exact json_inPlace _ hne (isDigit_toDigits _) hlead _
      · exact json_withExponent _ hne (isDigit_toDigits _) hlead _

/-- A style that shows the point of whole numbers writes nothing that looks like an integer. -/
theorem integer?_ofDecimal (style : NumberStyle) (hpoint : style.point = true) (d : Decimal) :
    (style.ofDecimal d).places ≠ none ∨ (style.ofDecimal d).exponent ≠ none := by
  have hinPlace (negative : Bool) (digits : List Char) (before : Int) :
      (style.inPlace negative digits before).places ≠ none := by
    unfold inPlace
    split
    · simp
    · dsimp only
      split <;> simp
  unfold ofDecimal
  split
  · simp
  · dsimp only
    split
    · exact .inl (hinPlace _ _ _)
    · split
      · exact .inl (hinPlace _ _ _)
      · exact .inr (by simp [withExponent])

end NumberStyle

namespace JsonReader

/-! ## Numbers -/

/-- What follows cannot belong to a number. -/
def Ends (rest : List Char) : Prop := ∀ c ∈ rest.head?, c.isDigit = false ∧ c ≠ '.' ∧ c ≠ 'e' ∧ c ≠ 'E'

theorem ends_nil : Ends [] := by
  intro c hc
  cases hc

theorem ends_cons {c : Char} (h : c.isDigit = false ∧ c ≠ '.' ∧ c ≠ 'e' ∧ c ≠ 'E') (rest : List Char) :
    Ends (c :: rest) := by
  intro d hd
  obtain rfl : c = d := Option.some.inj hd
  exact h

theorem digits?_append {digits rest : List Char} (hne : digits ≠ []) (hd : ∀ c ∈ digits, c.isDigit = true)
    (hr : ∀ c ∈ rest.head?, c.isDigit = false) : digits? (digits ++ rest) = some (digits, rest) := by
  unfold digits?
  rw [splitDigits_append hd hr]
  simp [hne]

theorem exponent?_powerText (n : Numeral) {rest : List Char} (h : Ends rest) :
    exponent? (n.powerText ++ rest) = some (n.exponent, rest) := by
  unfold powerText
  cases n.exponent with
  | none =>
    cases rest with
    | nil => rfl
    | cons c rest =>
      obtain ⟨-, -, he, hE⟩ := h c rfl
      simp [exponent?, he, hE]
  | some power =>
    have hdigits := digits?_append Nat.toDigits_ne_nil (NumberStyle.isDigit_toDigits power.natAbs) fun c hc => (h c hc).1
    by_cases hneg : power < 0
    · have hsign : powerSign power = '-' := if_pos hneg
      have hvalue : -(power.natAbs : Int) = power := by omega
      simp [exponent?, hsign, splitSign, hdigits, Nat.ofDigitChars_ten_toDigits, -Nat.cast_natAbs, hvalue]
    · have hsign : powerSign power = '+' := if_neg hneg
      have hvalue : (power.natAbs : Int) = power := by omega
      simp [exponent?, hsign, splitSign, hdigits, Nat.ofDigitChars_ten_toDigits, -Nat.cast_natAbs, hvalue]

/-- Neither the power of ten nor what follows a number goes on with digits or a point. -/
theorem head?_powerText (n : Numeral) {rest : List Char} (h : Ends rest) :
    ∀ c ∈ (n.powerText ++ rest).head?, c.isDigit = false ∧ c ≠ '.' := by
  unfold powerText
  cases n.exponent with
  | none => exact fun c hc => ⟨(h c hc).1, (h c hc).2.1⟩
  | some power =>
    intro c hc
    obtain rfl : 'e' = c := Option.some.inj hc
    decide

theorem places?_placesText {n : Numeral} (hn : n.Json) {rest : List Char}
    (h : ∀ c ∈ rest.head?, c.isDigit = false ∧ c ≠ '.') : places? (n.placesText ++ rest) = some (n.places, rest) := by
  unfold placesText
  cases hp : n.places with
  | none =>
    cases rest with
    | nil => rfl
    | cons c rest =>
      have hc := (h c rfl).2
      unfold places?
      split
      · rename_i heq
        exact absurd (List.cons.inj heq).1 hc
      · rfl
  | some p =>
    obtain ⟨hne, hd⟩ := hn.places p hp
    have hdigits := digits?_append hne hd fun c hc => (h c hc).1
    simp [places?, hdigits]

theorem whole?_append {n : Numeral} (hn : n.Json) {rest : List Char} (h : ∀ c ∈ rest.head?, c.isDigit = false) :
    whole? (n.whole ++ rest) = some (n.whole, rest) := by
  unfold whole?
  rw [digits?_append hn.nonempty hn.whole h, Option.bind_eq_bind, Option.bind_some]
  refine if_neg fun ⟨hhead, hlength⟩ => hlength ?_
  rw [hn.leading hhead]
  rfl

/-- A written number is read as its numeral. -/
theorem numeral?_text {n : Numeral} (hn : n.Json) {rest : List Char} (h : Ends rest) :
    numeral? (n.text.toList ++ rest) = some (n, rest) := by
  have hpower := head?_powerText n h
  have hplaces : ∀ c ∈ (n.placesText ++ (n.powerText ++ rest)).head?, c.isDigit = false := by
    unfold placesText
    cases n.places with
    | none => exact fun c hc => (hpower c hc).1
    | some p =>
      intro c hc
      obtain rfl : '.' = c := Option.some.inj hc
      rfl
  have hwhole := whole?_append hn hplaces
  have hpoint := places?_placesText hn hpower
  have hexponent := exponent?_powerText n h
  rw [toList_text_parts]
  simp only [List.append_assoc]
  unfold numeral?
  cases hneg : n.negative with
  | true =>
    simp only [if_true, List.cons_append, List.nil_append, hwhole, hpoint, hexponent, Option.bind_eq_bind, Option.bind_some]
    rw [← hneg]
    exact congrArg some rfl
  | false =>
    obtain ⟨c, whole, hcons⟩ := List.exists_cons_of_ne_nil hn.nonempty
    have hc : c ≠ '-' := by
      rintro rfl
      exact absurd (hn.whole '-' (hcons ▸ List.mem_cons_self)) (by decide)
    simp only [Bool.false_eq_true, if_false, List.nil_append]
    split
    · rename_i heq
      rw [hcons] at heq
      exact absurd (List.cons.inj heq).1 hc
    · simp only [hwhole, hpoint, hexponent, Option.bind_eq_bind, Option.bind_some]
      rw [← hneg]
      exact congrArg some rfl

/-! ## Strings -/

/-- The element of a written string that stands for a character: a control without a letter is written by its number. -/
def elementOf (c : Char) : Element :=
  if c < ' ' ∧ c ∉ ['\x08', '\x0c', '\n', '\r', '\t'] then .unit c.toNat else .char c

theorem hexUnit?_unitDigits :
    ∀ code < 32, hexUnit? '0' '0' (Nat.digitChar (code / 16)) (Nat.digitChar (code % 16)) = some code := by
  decide

/-- A written character is one element. -/
theorem elements_escaped (c : Char) (rest : List Char) :
    elements (JsonValue.escaped c ++ rest) = (elements rest).map fun (more, after) => (elementOf c :: more, after) := by
  -- A backslash and a letter are looked up, whatever the letter is.
  have hshort (e c' : Char) (hu : e ≠ 'u') (he : shortEscape? e = some c') (hc : elementOf c' = .char c') :
      elements ('\\' :: e :: rest) = (elements rest).map fun (more, after) => (elementOf c' :: more, after) := by
    rw [elements, he, hc]
    · cases elements rest <;> rfl
    · intro _ _ _ _ _ h
      exact absurd h hu
  unfold JsonValue.escaped
  split
  · exact hshort '"' '"' (by decide) rfl rfl
  · exact hshort '\\' '\\' (by decide) rfl rfl
  · exact hshort 'b' '\x08' (by decide) rfl rfl
  · exact hshort 'f' '\x0c' (by decide) rfl rfl
  · exact hshort 'n' '\n' (by decide) rfl rfl
  · exact hshort 'r' '\r' (by decide) rfl rfl
  · exact hshort 't' '\t' (by decide) rfl rfl
  · rename_i hquote hslash hb hf hn hr ht
    by_cases hc : c < ' '
    · have hletter : c ∉ ['\x08', '\x0c', '\n', '\r', '\t'] := by
        simp only [List.mem_cons, List.not_mem_nil, or_false, not_or]
        exact ⟨hb, hf, hn, hr, ht⟩
      have helement : elementOf c = .unit c.toNat := if_pos ⟨hc, hletter⟩
      rw [if_pos hc, helement]
      simp only [JsonValue.unitDigits, List.cons_append, List.nil_append, elements, hexUnit?_unitDigits c.toNat hc]
      cases elements rest <;> rfl
    · have helement : elementOf c = .char c := if_neg fun h => hc h.1
      rw [if_neg hc, helement, List.cons_append, List.nil_append, elements]
      · rw [if_neg (not_or.2 ⟨hc, hslash⟩)]
        cases elements rest <;> rfl
      · exact hquote
      · intro _ _ _ _ _ h
        exact absurd h hslash
      · intro _ _ h
        exact absurd h hslash

theorem elements_text (text rest : List Char) :
    elements (text.flatMap JsonValue.escaped ++ '"' :: rest) = some (text.map elementOf, rest) := by
  induction text with
  | nil => rfl
  | cons c text ih =>
    rw [List.flatMap_cons, List.append_assoc, elements_escaped, ih]
    rfl

/-- A control is no half of a surrogate pair, so it stands for itself whatever follows. -/
theorem characters?_elementOf (c : Char) (more : List Element) :
    characters? (elementOf c :: more) = (characters? more).map (c :: ·) := by
  unfold elementOf
  split
  · rename_i h
    have hlt : c.toNat < 32 := h.1
    have hhigh : isHighHalf c.toNat = false := by
      rw [isHighHalf, decide_eq_false (by omega), Bool.false_and]
    have hlow : isLowHalf c.toNat = false := by
      rw [isLowHalf, decide_eq_false (by omega), Bool.false_and]
    conv_lhs => unfold characters?
    split
    · rename_i heq
      cases heq
    · rename_i heq
      cases heq
    · rename_i heq
      cases heq
      simp [hhigh, hlow]
    · rename_i heq
      cases heq
      simp [hhigh, hlow]
  · rfl

theorem characters?_map_elementOf (text : List Char) : characters? (text.map elementOf) = some text := by
  induction text with
  | nil => rfl
  | cons c text ih => rw [List.map_cons, characters?_elementOf, ih, Option.map_some]

/-- A written string is read as its text. -/
theorem string_stringText (text : String) (rest : List Char) :
    ∃ inner, JsonValue.stringText text ++ rest = '"' :: inner ∧ string inner = (.string text, some rest) := by
  refine ⟨text.toList.flatMap JsonValue.escaped ++ '"' :: rest, by simp [JsonValue.stringText], ?_⟩
  unfold string
  rw [elements_text]
  simp only [characters?_map_elementOf, String.ofList_toList]

end JsonReader

end BeaconMap
