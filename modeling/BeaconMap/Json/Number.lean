import BeaconMap.Document.Problem
import BeaconMap.Number.Numeral
/-!
# What a JSON number stands for

A number without point and exponent is an integer if it fits 64 bits: from 0 to `2 ^ 64 - 1`, or with a minus
from 1 to `2 ^ 63`. Every other number is a double, `-0` among them. `quickConversion` is the conversion that JSON
documents use: the leading digits that fit 64 bits become a double, which is then multiplied or divided by a power
of ten. It rounds twice, so with many digits it can miss the nearest double by a little.
-/

namespace BeaconMap

namespace JsonNumber

/-- The integer that a numeral without point and exponent stands for, if it fits 64 bits. -/
def integer? (n : Numeral) : Option Int :=
  match n.places, n.exponent with
  | none, none =>
    let size := Nat.ofDigitChars 10 n.whole 0
    if n.negative then
      if 0 < size ∧ Int64.minValue.toInt ≤ -(size : Int) then some (-(size : Int)) else none
    else
      if size < UInt64.size then some size else none
  | _, _ => none

/-- Appends digits to a number as long as it stays below `2 ^ 64`; also the digits that are left over. -/
def takeFitting (significand : Nat) : List Char → Nat × List Char
  | [] => (significand, [])
  | d :: rest =>
    let next := 10 * significand + (d.toNat - '0'.toNat)
    if next < UInt64.size then takeFitting next rest else (significand, d :: rest)

/-- The leading digits that fit 64 bits, and the power of ten they are to be multiplied by. -/
def leading (n : Numeral) : Nat × Int :=
  let places := n.places.getD []
  let (whole, wholeLeft) := takeFitting 0 n.whole
  let (significand, placesLeft) := takeFitting whole places
  (significand, n.exponent.getD 0 + wholeLeft.length - (places.length - placesLeft.length : Nat))

/-- Ten to a power as a double. -/
def tenTo (power : Nat) : Binary64 := .ofNat (Nat.pow 10 power)

/--
A double over ten to a power. Powers past the largest double are divided by in two steps; the quotient by a power
past both is zero.
-/
def overTenTo (x : Binary64) (power : Nat) : Binary64 :=
  if power ≤ 308 then x.div (tenTo power)
  else if power ≤ 616 then (x.div (tenTo 308)).div (tenTo (power - 308))
  else .zero false

/-- The double for a numeral, or nothing if it is too large for one. -/
def quickConversion (n : Numeral) : Option Binary64 :=
  let (significand, power) := leading n
  let size := Binary64.ofNat significand
  let rounded := match power with
    | .ofNat p =>
      if p ≤ 308 then size.mul (tenTo p) else if size.isZero then size else .infinity false
    | .negSucc p => overTenTo size (p + 1)
  if rounded.isFinite then some (.ofWord n.negative rounded.bits.toNat) else none

/-- The nearest double for a numeral, or nothing if it is too large for one. -/
def nearestConversion (n : Numeral) : Option Binary64 :=
  let x := n.toBinary64
  if x.isFinite then some x else none

/-- What a number is found to be under a conversion; a number too large for a double makes the document malformed. -/
def found (convert : Numeral → Option Binary64) (n : Numeral) : Except Problem Found :=
  match integer? n with
  | some value => .ok (.integer value)
  | none =>
    match convert n with
    | some x => .ok (.real x)
    | none => .error .malformed

end JsonNumber

end BeaconMap
