import BeaconMap.Number.Binary64
/-!
# Written numbers

A `Decimal` is a sign, a coefficient and a power of ten: what a written number says before it is rounded.
`Decimal.toBinary64` rounds it once, to the nearest double.

A `Numeral` is a number as it stands in a text: a sign, the digits before the point, the digits after it, a power
of ten. Many numerals name one `Decimal` (`value`). `text` writes a numeral down; the documents that hold numerals
each say which texts they read.
-/

namespace BeaconMap

/-! ## Decimal numbers -/

/-- The number `± coefficient · 10 ^ exponent`. -/
structure Decimal where
  negative : Bool
  coefficient : Nat
  exponent : Int
deriving DecidableEq, Repr

namespace Decimal

/-- The number of digits of `n`; zero has one. -/
def digitCount (n : Nat) : Nat := (Nat.toDigits 10 n).length

/--
The nearest double. A number of at least `10 ^ 309` is past the largest double and one below `10 ^ -324` is
nearer to zero than to the smallest, so the power of ten is never computed for larger exponents.
-/
def toBinary64 (d : Decimal) : Binary64 :=
  let size := (digitCount d.coefficient : Int) + d.exponent
  if d.coefficient = 0 ∨ size < -323 then .zero d.negative
  else if 309 < size then .infinity d.negative
  else match d.exponent with
    | .ofNat e => .nearest d.negative (d.coefficient * Nat.pow 10 e) 1
    | .negSucc e => .nearest d.negative d.coefficient (Nat.pow 10 (e + 1))

end Decimal

/-! ## Numerals -/

/-- A number as it is written. -/
structure Numeral where
  negative : Bool
  /-- The digits before the point. -/
  whole : List Char
  /-- The digits after the point, if there is one. -/
  places : Option (List Char) := none
  /-- The power of ten, if one is written. -/
  exponent : Option Int := none
deriving DecidableEq, Repr, Inhabited

namespace Numeral

/-- The decimal that a numeral names. -/
def value (n : Numeral) : Decimal :=
  let places := n.places.getD []
  ⟨n.negative, Nat.ofDigitChars 10 (n.whole ++ places) 0, n.exponent.getD 0 - places.length⟩

/-- The nearest double. -/
def toBinary64 (n : Numeral) : Binary64 := n.value.toBinary64

/-- The numeral written down; a power of ten shows its sign. -/
def text (n : Numeral) : String :=
  (if n.negative then "-" else "") ++ String.ofList n.whole ++
  (match n.places with
    | none => ""
    | some places => "." ++ String.ofList places) ++
  (match n.exponent with
    | none => ""
    | some power => (if power < 0 then "e" else "e+") ++ power.repr)

/-- The sign in front of a written number, and the rest of it. -/
def splitSign : List Char → Bool × List Char
  | '-' :: rest => (true, rest)
  | '+' :: rest => (false, rest)
  | rest => (false, rest)

/-- The digits at the start of a text, and the rest of it. -/
def splitDigits (text : List Char) : List Char × List Char :=
  (text.takeWhile Char.isDigit, text.dropWhile Char.isDigit)

/-- Reads a whole text as a numeral: a sign, digits, a point, digits, an exponent; some digits have to be there. -/
def ofText? (text : String) : Option Numeral :=
  let (negative, unsigned) := splitSign text.toList
  let (whole, rest) := splitDigits unsigned
  let (places, rest) : Option (List Char) × List Char :=
    match rest with
    | '.' :: more => let (places, rest) := splitDigits more; (some places, rest)
    | _ => (none, rest)
  if whole.isEmpty && (places.getD []).isEmpty then none
  else match rest with
    | [] => some ⟨negative, whole, places, none⟩
    | mark :: power =>
      let (down, digits) := splitSign power
      if (mark == 'e' || mark == 'E') && !digits.isEmpty && digits.all Char.isDigit then
        let size : Nat := Nat.ofDigitChars 10 digits 0
        some ⟨negative, whole, places, some (if down then -(size : Int) else size)⟩
      else none

end Numeral

/-- The double that a text names: a number, `nan`, `inf` or `-inf`. -/
def Binary64.ofText? (text : String) : Option Binary64 :=
  if text = "nan" then some .nan
  else if text = "inf" then some (.infinity false)
  else if text = "-inf" then some (.infinity true)
  else (Numeral.ofText? text).map Numeral.toBinary64

end BeaconMap
