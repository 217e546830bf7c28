import BeaconMap.Number.Numeral
/-!
# The shortest decimal that reads back

`Shortest.decimal` gives a finite double the decimal of fewest digits that rounds to it, and of those the
nearest. It looks at grids of powers of ten, from the one just above the value down to seventeen digits: on
each, only the two neighbours of the value can be the answer, so the first grid on which one of them reads back
wins.
-/

namespace BeaconMap

/-- Which of two decimals equally near to a double is taken. -/
inductive TieRule where
  /-- The larger one. -/
  | up
  /-- The one whose last digit is even. -/
  | even
deriving DecidableEq, Repr

namespace Shortest

/--
The power of ten of the leading digit of a finite `x` that is not zero. Ten to the 330 times the least double
is above one, so the digits of that product count the powers.
-/
def leadingPower (x : Binary64) : Int :=
  (Decimal.digitCount (x.magnitude * Nat.pow 10 330 / Binary64.unit) : Int) - 331

/-- The absolute value of `x` over `10 ^ power`, as a quotient of natural numbers. -/
def overPower (x : Binary64) (power : Int) : Nat × Nat :=
  match power with
  | .ofNat p => (x.magnitude, Binary64.unit * Nat.pow 10 p)
  | .negSucc p => (x.magnitude * Nat.pow 10 (p + 1), Binary64.unit)

/-- The decimal `coefficient · 10 ^ power`, with the sign of `x`, reads back as `x`. -/
def readsBack (x : Binary64) (coefficient : Nat) (power : Int) : Bool :=
  (Decimal.mk x.negative coefficient power).toBinary64 == x

/-- The better neighbour of `x` on the grid of multiples of `10 ^ power`, if one reads back. -/
def onGrid (ties : TieRule) (x : Binary64) (power : Int) : Option Decimal :=
  let (num, den) := overPower x power
  let low := num / den
  let excess := 2 * (num % den)
  let preferLow := excess < den ∨ (excess = den ∧ ties = .even ∧ low % 2 = 0)
  match readsBack x low power, readsBack x (low + 1) power with
  | true, true => some ⟨x.negative, if preferLow then low else low + 1, power⟩
  | true, false => some ⟨x.negative, low, power⟩
  | false, true => some ⟨x.negative, low + 1, power⟩
  | false, false => none

/-- Every digit of `x`: a unit is `5 ^ 1074` times `10 ^ -1074`. -/
def allDigits (x : Binary64) : Decimal := ⟨x.negative, x.magnitude * Nat.pow 5 1074, -1074⟩

/-- The fewest digits that read back as the finite number `x`. -/
def decimal (ties : TieRule) (x : Binary64) : Decimal :=
  if x.magnitude = 0 then ⟨x.negative, 0, 0⟩
  else
    let top := leadingPower x
    ((List.range 18).findSome? fun (n : Nat) => onGrid ties x (top + 1 - n)).getD (allDigits x)

end Shortest

end BeaconMap
