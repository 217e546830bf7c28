import BeaconMap.Number.Numeral
import BeaconMap.Number.Shortest
/-!
# How doubles are written

A `NumberStyle` holds the choices that a written form adds to the shortest digits of a number: where an exponent
is used, whether a whole number shows its point, where a tie goes. The styles of the library are at the end.
-/

namespace BeaconMap

/-- The choices of a written form. -/
structure NumberStyle where
  /-- Which of two equally near decimals is taken. -/
  ties : TieRule
  /-- The least and the greatest number of digits before the point that need no exponent; all, if absent. -/
  positional : Option (Int × Int)
  /-- A whole number written without an exponent ends in `.0`. -/
  point : Bool
deriving DecidableEq, Repr

namespace NumberStyle

/-- Writes digits with the point after the first `before` of them, zeros filling the gaps. -/
def inPlace (style : NumberStyle) (negative : Bool) (digits : List Char) (before : Int) : Numeral :=
  if before ≤ 0 then ⟨negative, ['0'], some (List.replicate before.natAbs '0' ++ digits), none⟩
  else
    let n := before.toNat
    if digits.length ≤ n then
      ⟨negative, digits ++ List.replicate (n - digits.length) '0', if style.point then some ['0'] else none, none⟩
    else ⟨negative, digits.take n, some (digits.drop n), none⟩

/-- Writes digits with the point after the first, times a power of ten. -/
def withExponent (negative : Bool) (digits : List Char) (before : Int) : Numeral :=
  ⟨negative, digits.take 1, if digits.length ≤ 1 then none else some (digits.drop 1), some (before - 1)⟩

/-- Writes a decimal. -/
def ofDecimal (style : NumberStyle) (d : Decimal) : Numeral :=
  if d.coefficient = 0 then ⟨d.negative, ['0'], if style.point then some ['0'] else none, none⟩
  else
    let digits := Nat.toDigits 10 d.coefficient
    let before := (digits.length : Int) + d.exponent
    match style.positional with
    | none => style.inPlace d.negative digits before
    | some (least, most) =>
      if least ≤ before ∧ before ≤ most then style.inPlace d.negative digits before
      else withExponent d.negative digits before

/-- Writes a finite number. -/
def numeral (style : NumberStyle) (x : Binary64) : Numeral := style.ofDecimal (Shortest.decimal style.ties x)

/-- The text of a number; an infinity and a NaN have names. -/
def text (style : NumberStyle) (x : Binary64) : String :=
  if x.isNaN then "NaN"
  else if x.isFinite then (style.numeral x).text
  else if x.negative then "-inf"
  else "inf"

/-- Scripts and messages write every digit in place and no point after a whole number. -/
def plain : NumberStyle := ⟨.up, none, false⟩

/-- Reports about TOML documents write every digit in place, and a whole number ends in `.0`. -/
def pointed : NumberStyle := ⟨.up, none, true⟩

/--
JSON documents and reports about them use an exponent below `10 ^ -5` and from `10 ^ 16` on; a tie goes to the even
digit.
-/
def document : NumberStyle := ⟨.even, some (-4, 16), true⟩

end NumberStyle

/-- The plain text of a number. -/
def Binary64.text (x : Binary64) : String := NumberStyle.plain.text x

end BeaconMap
