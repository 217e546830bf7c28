/-!
# Double-precision numbers as words

A `Binary64` is its 64-bit interchange word, so equality is equality of bits: `0` and `-0` differ and a
NaN equals itself. A finite number is a whole number of *units* of `2 ^ -1074`, the smallest positive
number of the format (`magnitude`, `scaled`), and everything the library asks of a number is asked of
that integer. `nearest` rounds a quotient of natural numbers to the format, ties to the even word.
-/

namespace BeaconMap

/-- A double-precision number, held as its 64-bit interchange word. -/
structure Binary64 where
  bits : UInt64
deriving DecidableEq, Repr

namespace Binary64

/-! ## Fields of the word -/

/-- The sign bit is set. -/
def negative (x : Binary64) : Bool := decide (Nat.pow 2 63 ≤ x.bits.toNat)

/-- The eleven exponent bits. -/
def exponentField (x : Binary64) : Nat := x.bits.toNat / Nat.pow 2 52 % Nat.pow 2 11

/-- The fifty-two fraction bits. -/
def fraction (x : Binary64) : Nat := x.bits.toNat % Nat.pow 2 52

/-- Neither an infinity nor a NaN. -/
def isFinite (x : Binary64) : Bool := x.exponentField != 2047

/-- All exponent bits and some fraction bit are set. -/
def isNaN (x : Binary64) : Bool := x.exponentField == 2047 && x.fraction != 0

/-! ## The value in units of `2 ^ -1074` -/

/-- The number of units in one. -/
def unit : Nat := Nat.pow 2 1074

/-- The absolute value of a finite number in units. -/
def magnitude (x : Binary64) : Nat :=
  if x.exponentField = 0 then x.fraction
  else (Nat.pow 2 52 + x.fraction) * Nat.pow 2 (x.exponentField - 1)

/-- The value of a finite number in units. -/
def scaled (x : Binary64) : Int := if x.negative then -(x.magnitude : Int) else x.magnitude

/-- A zero of either sign. -/
def isZero (x : Binary64) : Bool := x.isFinite && x.magnitude == 0

/-- A finite number that is not below zero; `-0` is one. -/
def isNonNegative (x : Binary64) : Bool := x.isFinite && decide (0 ≤ x.scaled)

/-- A number from 0 to 100, both included. -/
def isPercentage (x : Binary64) : Bool := x.isNonNegative && decide (x.magnitude ≤ 100 * unit)

/-! ## Making numbers -/

/-- The number with the given sign whose other bits are `word`; a word past the finite ones is infinite. -/
def ofWord (isNegative : Bool) (word : Nat) : Binary64 :=
  ⟨UInt64.ofNat (min word (2047 * Nat.pow 2 52) + if isNegative then Nat.pow 2 63 else 0)⟩

/-- The zero of the given sign. -/
def zero (isNegative : Bool) : Binary64 := ofWord isNegative 0

/-- The infinity of the given sign. -/
def infinity (isNegative : Bool) : Binary64 := ofWord isNegative (2047 * Nat.pow 2 52)

/-- The quiet NaN. -/
def nan : Binary64 := ⟨0x7ff8000000000000⟩

instance : Inhabited Binary64 := ⟨zero false⟩

/-- The whole number nearest to `num / den`, a half going to the even neighbour. -/
def roundHalfEven (num den : Nat) : Nat :=
  let low := num / den
  let excess := 2 * (num % den)
  if excess < den ∨ (excess = den ∧ low % 2 = 0) then low else low + 1

/--
The number nearest to `num / den`, ties to even. The quotient is rounded to a significand of 53 bits (fewer
near zero) over a power of two `shift`; a significand that rounds up to `2 ^ 53` carries into the exponent by
itself, because the word of a significand `m` over `shift` is `shift * 2 ^ 52 + m`.
-/
def nearest (isNegative : Bool) (num den : Nat) : Binary64 :=
  let units := num * unit / den
  let shift := if units < Nat.pow 2 53 then 0 else units.log2 - 52
  ofWord isNegative (shift * Nat.pow 2 52 + roundHalfEven (num * unit) (den * Nat.pow 2 shift))

/-- The nearest number to a natural number. -/
def ofNat (n : Nat) : Binary64 := nearest false n 1

/-- The nearest number to an integer. -/
def ofInt (n : Int) : Binary64 := nearest (decide (n < 0)) n.natAbs 1

/-- The rounded product of two finite numbers. -/
def mul (x y : Binary64) : Binary64 :=
  nearest (x.negative != y.negative) (x.magnitude * y.magnitude) (unit * unit)

/-- The rounded quotient of two finite numbers, the second not zero. -/
def div (x y : Binary64) : Binary64 :=
  nearest (x.negative != y.negative) x.magnitude y.magnitude

end Binary64

end BeaconMap
