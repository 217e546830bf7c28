import BeaconMap.Json.Reader
import BeaconMap.Toml.Value
/-!
# Reading TOML strings, numbers and dates

Each reader takes one kind of value off the front of a text and gives the text after it, or nothing if the value is
not there or not well formed. What may follow a value is for the caller to say.
-/

namespace BeaconMap

namespace TomlReader

/-! ## Characters -/

/-- A blank within a line. -/
def isBlank (c : Char) : Bool := c == ' ' || c == '\t'

/-- The text after its leading blanks. -/
def skipBlanks (text : List Char) : List Char := text.dropWhile isBlank

/-- A character of a comment: a tab, or anything that is no control character. -/
def isTextChar (c : Char) : Bool := c == '\t' || (decide (' ' ≤ c) && c != '\x7f')

/-- The text after the end of a line. -/
def newline? : List Char → Option (List Char)
  | '\n' :: rest => some rest
  | '\r' :: '\n' :: rest => some rest
  | _ => none

/-! ## Strings -/

/-- The character with a code, if there is one. -/
def scalar? (code : Nat) : Option Char := if code.isValidChar then some (Char.ofNat code) else none

/-- The character after a backslash that stands for a single character. -/
def shortEscape? : Char → Option Char
  | 'b' => some '\x08'
  | 't' => some '\t'
  | 'n' => some '\n'
  | 'f' => some '\x0c'
  | 'r' => some '\r'
  | '"' => some '"'
  | '\\' => some '\\'
  | _ => none

/-- Reads what follows a backslash. -/
def escape? : List Char → Option (Char × List Char)
  | 'u' :: a :: b :: c :: d :: rest => do
    let code ← JsonReader.hexUnit? a b c d
    return (← scalar? code, rest)
  | 'U' :: a :: b :: c :: d :: e :: f :: g :: h :: rest => do
    let high ← JsonReader.hexUnit? a b c d
    let low ← JsonReader.hexUnit? e f g h
    return (← scalar? (high * 0x10000 + low), rest)
  | e :: rest => (shortEscape? e).map fun c => (c, rest)
  | [] => none

/-- The text after its leading blanks and line ends. -/
def skipBlankLines : List Char → List Char
  | [] => []
  | '\r' :: '\n' :: rest => skipBlankLines rest
  | c :: rest => if isBlank c || c == '\n' then skipBlankLines rest else c :: rest

/-- The text after a backslash that ends its line, without the blanks and line ends that follow. -/
def lineContinuation? (text : List Char) : Option (List Char) :=
  (newline? (skipBlanks text)).map skipBlankLines

/-- Reads a string after its opening quotation mark. -/
def basicString (fuel : Nat) (text : List Char) : Option (List Char × List Char) :=
  match fuel, text with
  | fuel + 1, c :: rest => do
    if c = '"' then return ([], rest)
    else if c = '\\' then
      let (e, rest) ← escape? rest
      let (more, after) ← basicString fuel rest
      return (e :: more, after)
    else if isTextChar c then
      let (more, after) ← basicString fuel rest
      return (c :: more, after)
    else none
  | _, _ => none

/--
Reads a string over several lines after its opening quotation marks. Up to two marks may stand before the closing
three.
-/
def longBasicString (fuel : Nat) (text : List Char) : Option (List Char × List Char) :=
  match fuel with
  | 0 => none
  | fuel + 1 =>
    match text with
    | '"' :: '"' :: '"' :: '"' :: '"' :: rest => some (['"', '"'], rest)
    | '"' :: '"' :: '"' :: '"' :: rest => some (['"'], rest)
    | '"' :: '"' :: '"' :: rest => some ([], rest)
    | '\\' :: rest =>
      match lineContinuation? rest with
      | some rest => longBasicString fuel rest
      | none => do
        let (e, rest) ← escape? rest
        let (more, after) ← longBasicString fuel rest
        return (e :: more, after)
    | _ =>
      match newline? text with
      | some rest => do
        let (more, after) ← longBasicString fuel rest
        return ('\n' :: more, after)
      | none =>
        match text with
        | [] => none
        | c :: rest => do
          if isTextChar c then
            let (more, after) ← longBasicString fuel rest
            return (c :: more, after)
          else none

/-- Reads a literal string after its opening apostrophe. -/
def literalString : List Char → Option (List Char × List Char)
  | [] => none
  | c :: rest => do
    if c = '\x27' then return ([], rest)
    else if isTextChar c then
      let (more, after) ← literalString rest
      return (c :: more, after)
    else none

/--
Reads a literal string over several lines after its opening apostrophes. Up to two may stand before the closing
three.
-/
def longLiteralString : List Char → Option (List Char × List Char)
  | '\x27' :: '\x27' :: '\x27' :: '\x27' :: '\x27' :: rest => some (['\x27', '\x27'], rest)
  | '\x27' :: '\x27' :: '\x27' :: '\x27' :: rest => some (['\x27'], rest)
  | '\x27' :: '\x27' :: '\x27' :: rest => some ([], rest)
  | '\r' :: '\n' :: rest => (longLiteralString rest).map fun (more, after) => ('\n' :: more, after)
  | c :: rest =>
    if c = '\n' ∨ isTextChar c then (longLiteralString rest).map fun (more, after) => (c :: more, after)
    else none
  | [] => none

/-- The text without the end of a line at its start. -/
def dropNewline (text : List Char) : List Char := (newline? text).getD text

/-- Reads a string within one line. -/
def shortString : List Char → Option (String × List Char)
  | '"' :: rest => (basicString (rest.length + 1) rest).map fun (chars, after) => (String.ofList chars, after)
  | '\x27' :: rest => (literalString rest).map fun (chars, after) => (String.ofList chars, after)
  | _ => none

/-- Reads a string. -/
def string : List Char → Option (String × List Char)
  | '"' :: '"' :: '"' :: rest =>
    (longBasicString (rest.length + 1) (dropNewline rest)).map fun (chars, after) => (String.ofList chars, after)
  | '\x27' :: '\x27' :: '\x27' :: rest =>
    (longLiteralString (dropNewline rest)).map fun (chars, after) => (String.ofList chars, after)
  | text => shortString text

/-! ## Numbers -/

/-- Digits after a first one, an underscore allowed before each; and the text after them. -/
def moreDigits (isDigit : Char → Bool) : List Char → List Char × List Char
  | [] => ([], [])
  | '_' :: c :: rest =>
    if isDigit c then
      let (more, after) := moreDigits isDigit rest
      (c :: more, after)
    else ([], '_' :: c :: rest)
  | c :: rest =>
    if isDigit c then
      let (more, after) := moreDigits isDigit rest
      (c :: more, after)
    else ([], c :: rest)

/-- Digits with single underscores between them. -/
def digits (isDigit : Char → Bool) : List Char → Option (List Char × List Char)
  | [] => none
  | c :: rest =>
    if isDigit c then
      let (more, after) := moreDigits isDigit rest
      some (c :: more, after)
    else none

/-- The digits of a decimal integer: a zero alone, or digits that do not start with one. -/
def wholeDigits : List Char → Option (List Char × List Char)
  | '0' :: rest => some (['0'], rest)
  | text => digits Char.isDigit text

/-- An integer that fits 64 bits. -/
def bounded (n : Int) : Option TomlValue :=
  if Int64.minValue.toInt ≤ n ∧ n ≤ Int64.maxValue.toInt then some (.integer n) else none

/-- Reads a decimal integer. -/
def decimalInteger (text : List Char) : Option (TomlValue × List Char) := do
  let (negative, unsigned) := Numeral.splitSign text
  let (chars, after) ← wholeDigits unsigned
  let size : Nat := Nat.ofDigitChars 10 chars 0
  return (← bounded (if negative then -(size : Int) else size), after)

/-- The number that hexadecimal, octal or binary digits name. -/
def ofRadix (radix : Nat) (chars : List Char) : Nat :=
  chars.foldl (fun n c => n * radix + (JsonReader.hexValue? c).getD 0) 0

/-- A digit of a radix up to sixteen. -/
def isRadixDigit (radix : Nat) (c : Char) : Bool := (JsonReader.hexValue? c).any (· < radix)

/-- Reads the digits of an integer in a radix. -/
def radixInteger (radix : Nat) (text : List Char) : Option (TomlValue × List Char) := do
  let (chars, after) ← digits (isRadixDigit radix) text
  return (← bounded (ofRadix radix chars), after)

/-- Reads an integer. -/
def integer : List Char → Option (TomlValue × List Char)
  | '0' :: 'x' :: rest => radixInteger 16 rest
  | '0' :: 'o' :: rest => radixInteger 8 rest
  | '0' :: 'b' :: rest => radixInteger 2 rest
  | text => decimalInteger text

/-- Reads the digits after a point, if there is one. -/
def places : List Char → Option (Option (List Char) × List Char)
  | '.' :: rest => (digits Char.isDigit rest).map fun (chars, after) => (some chars, after)
  | text => some (none, text)

/-- Reads a power of ten, if there is one. -/
def exponent : List Char → Option (Option Int × List Char)
  | [] => some (none, [])
  | mark :: rest =>
    if mark = 'e' ∨ mark = 'E' then do
      let (down, unsigned) := Numeral.splitSign rest
      let (chars, after) ← digits Char.isDigit unsigned
      let size : Nat := Nat.ofDigitChars 10 chars 0
      return (some (if down then -(size : Int) else size), after)
    else some (none, mark :: rest)

/-- Reads a number with a point or an exponent; one that is rounded up to infinity is refused. -/
def writtenReal (text : List Char) : Option (TomlValue × List Char) := do
  let (negative, unsigned) := Numeral.splitSign text
  let (whole, rest) ← wholeDigits unsigned
  let (places, rest) ← places rest
  let (exponent, rest) ← exponent rest
  if places.isNone && exponent.isNone then none
  else
    let x := (Numeral.mk negative whole places exponent).toBinary64
    if x = .infinity false then none else return (.real x, rest)

/-- Reads an infinity or a NaN. -/
def namedReal (text : List Char) : Option (TomlValue × List Char) :=
  let (negative, unsigned) := Numeral.splitSign text
  match unsigned with
  | 'i' :: 'n' :: 'f' :: rest => some (.real (.infinity negative), rest)
  | 'n' :: 'a' :: 'n' :: rest => some (.real .nan, rest)
  | _ => none

/-! ## Dates and times -/

/-- Reads exactly `count` digits as a number between two bounds. -/
def numberBetween (count least most : Nat) (text : List Char) : Option (Nat × List Char) :=
  let chars := text.take count
  let n := Nat.ofDigitChars 10 chars 0
  if chars.length = count ∧ chars.all Char.isDigit ∧ least ≤ n ∧ n ≤ most then some (n, text.drop count)
  else none

/-- The text after a character. -/
def after? (c : Char) : List Char → Option (List Char)
  | d :: rest => if d = c then some rest else none
  | [] => none

/-- The number of days of a month. -/
def daysOf (year month : Nat) : Nat :=
  if month = 2 then
    if year % 4 = 0 ∧ (year % 100 ≠ 0 ∨ year % 400 = 0) then 29 else 28
  else if month = 4 ∨ month = 6 ∨ month = 9 ∨ month = 11 then 30
  else 31

/-- The text after a date. -/
def date? (text : List Char) : Option (List Char) := do
  let (year, text) ← numberBetween 4 0 9999 text
  let text ← after? '-' text
  let (month, text) ← numberBetween 2 1 12 text
  let text ← after? '-' text
  let (_, text) ← numberBetween 2 1 (daysOf year month) text
  return text

/-- The text after a fraction of a second, if there is one. -/
def secondFraction? : List Char → Option (List Char)
  | '.' :: rest =>
    let (digits, after) := Numeral.splitDigits rest
    if digits.isEmpty then none else some after
  | text => some text

/-- The text after a time of day. -/
def time? (text : List Char) : Option (List Char) := do
  let (_, text) ← numberBetween 2 0 23 text
  let text ← after? ':' text
  let (_, text) ← numberBetween 2 0 59 text
  let text ← after? ':' text
  let (_, text) ← numberBetween 2 0 60 text
  secondFraction? text

/-- The text after the distance to universal time, if there is one. -/
def offset? : List Char → Option (List Char)
  | [] => some []
  | c :: rest =>
    if c = 'Z' ∨ c = 'z' then some rest
    else if c = '+' ∨ c = '-' then do
      let (_, rest) ← numberBetween 2 0 23 rest
      let rest ← after? ':' rest
      let (_, rest) ← numberBetween 2 0 59 rest
      return rest
    else some (c :: rest)

/-- The text after a date with or without a time of day. -/
def dateAndTime? (text : List Char) : Option (List Char) := do
  let rest ← date? text
  match rest with
  | [] => return rest
  | c :: more =>
    if c = 'T' ∨ c = 't' ∨ c = ' ' then
      match time? more with
      | some after => offset? after
      | none => return rest
    else return rest

/-- Reads a date, a time of day, or both. -/
def datetime (text : List Char) : Option (TomlValue × List Char) :=
  ((dateAndTime? text).or (time? text)).map fun rest => (.datetime, rest)

/-! ## Scalars -/

/-- Reads a value that is neither a list nor a table. -/
def scalar (text : List Char) : Option (TomlValue × List Char) :=
  match text with
  | 't' :: 'r' :: 'u' :: 'e' :: rest => some (.boolean true, rest)
  | 'f' :: 'a' :: 'l' :: 's' :: 'e' :: rest => some (.boolean false, rest)
  | '"' :: _ => (string text).map fun (s, rest) => (.string s, rest)
  | '\x27' :: _ => (string text).map fun (s, rest) => (.string s, rest)
  | _ => (datetime text).or <| (writtenReal text).or <| (namedReal text).or <| integer text

end TomlReader

end BeaconMap
