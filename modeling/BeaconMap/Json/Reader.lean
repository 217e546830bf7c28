import BeaconMap.Json.Value
/-!
# Reading JSON texts

The readers take a value off the front of a text and say what follows it, or that the text broke off. Every step
into a value costs one unit of `fuel`; `JsonValue.ofText` gives two for every character, and no reader enters a
value twice without having taken a character.
-/

namespace BeaconMap

namespace JsonReader

/-- A blank between tokens. -/
def isBlank (c : Char) : Bool := c == ' ' || c == '\t' || c == '\n' || c == '\r'

/-- The text after its leading blanks. -/
def skipBlanks (text : List Char) : List Char := text.dropWhile isBlank

/-! ## Strings -/

/-- The value of a hexadecimal digit. -/
def hexValue? (c : Char) : Option Nat :=
  if '0' ≤ c ∧ c ≤ '9' then some (c.toNat - '0'.toNat)
  else if 'a' ≤ c ∧ c ≤ 'f' then some (c.toNat - 'a'.toNat + 10)
  else if 'A' ≤ c ∧ c ≤ 'F' then some (c.toNat - 'A'.toNat + 10)
  else none

/-- The value of four hexadecimal digits. -/
def hexUnit? (a b c d : Char) : Option Nat := do
  return (((← hexValue? a) * 16 + (← hexValue? b)) * 16 + (← hexValue? c)) * 16 + (← hexValue? d)

/-- One element of a string: a character, or a sixteen-bit unit given by its number. -/
inductive Element where
  | char (c : Char)
  | unit (code : Nat)
deriving DecidableEq, Repr

/-- The character after a backslash that stands for a single character. -/
def shortEscape? : Char → Option Char
  | '"' => some '"'
  | '\\' => some '\\'
  | '/' => some '/'
  | 'b' => some '\x08'
  | 'f' => some '\x0c'
  | 'n' => some '\n'
  | 'r' => some '\r'
  | 't' => some '\t'
  | _ => none

/-- The elements of a string up to its closing mark, and the text after it. -/
def elements : List Char → Option (List Element × List Char)
  | [] => none
  | '"' :: rest => some ([], rest)
  | '\\' :: 'u' :: a :: b :: c :: d :: rest =>
    match hexUnit? a b c d, elements rest with
    | some code, some (more, after) => some (.unit code :: more, after)
    | _, _ => none
  | '\\' :: e :: rest =>
    match shortEscape? e, elements rest with
    | some c, some (more, after) => some (.char c :: more, after)
    | _, _ => none
  | c :: rest =>
    if c < ' ' ∨ c = '\\' then none
    else match elements rest with
      | some (more, after) => some (.char c :: more, after)
      | none => none

/-- The unit is the first half of a surrogate pair. -/
def isHighHalf (code : Nat) : Bool := decide (0xD800 ≤ code) && decide (code ≤ 0xDBFF)

/-- The unit is the second half of a surrogate pair. -/
def isLowHalf (code : Nat) : Bool := decide (0xDC00 ≤ code) && decide (code ≤ 0xDFFF)

/-- The characters that elements stand for, if the halves of surrogate pairs all meet. -/
def characters? : List Element → Option (List Char)
  | [] => some []
  | .char c :: rest => (characters? rest).map (c :: ·)
  | .unit high :: .unit low :: rest =>
    if isHighHalf high then
      if isLowHalf low then
        (characters? rest).map (Char.ofNat (0x10000 + (high - 0xD800) * 0x400 + (low - 0xDC00)) :: ·)
      else none
    else if isLowHalf high then none
    else (characters? (.unit low :: rest)).map (Char.ofNat high :: ·)
  | .unit code :: rest =>
    if isHighHalf code || isLowHalf code then none else (characters? rest).map (Char.ofNat code :: ·)

/-! ## Numbers -/

/-- Digits at the start of a text, at least one, and the text after them. -/
def digits? (text : List Char) : Option (List Char × List Char) :=
  let (digits, rest) := Numeral.splitDigits text
  if digits.isEmpty then none else some (digits, rest)

/-- The digits before the point: a zero alone, or digits that do not start with one. -/
def whole? (text : List Char) : Option (List Char × List Char) := do
  let (digits, rest) ← digits? text
  if digits.head? = some '0' ∧ digits.length ≠ 1 then none else some (digits, rest)

/-- The digits after the point, if there is one. -/
def places? : List Char → Option (Option (List Char) × List Char)
  | '.' :: text => (digits? text).map fun (digits, rest) => (some digits, rest)
  | text => some (none, text)

/-- The power of ten, if there is one. -/
def exponent? : List Char → Option (Option Int × List Char)
  | [] => some (none, [])
  | mark :: text =>
    if mark = 'e' ∨ mark = 'E' then
      let (down, unsigned) := Numeral.splitSign text
      (digits? unsigned).map fun (digits, rest) =>
        let size : Nat := Nat.ofDigitChars 10 digits 0
        (some (if down then -(size : Int) else size), rest)
    else some (none, mark :: text)

/-- The number at the start of a text, and the text after it. -/
def numeral? (text : List Char) : Option (Numeral × List Char) := do
  let (negative, text) := match text with
    | '-' :: rest => (true, rest)
    | _ => (false, text)
  let (whole, text) ← whole? text
  let (places, text) ← places? text
  let (exponent, text) ← exponent? text
  return (⟨negative, whole, places, exponent⟩, text)

/-! ## Values -/

/-- What a reader found, and the text after it unless the text broke off. -/
abbrev Reading (α : Type) := α × Option (List Char)

/-- Reads a text after the opening mark of a string. -/
def string (text : List Char) : Reading JsonValue :=
  match elements text with
  | none => (.malformed, none)
  | some (found, rest) =>
    match characters? found with
    | some chars => (.string (String.ofList chars), some rest)
    | none => (.unpaired, some rest)

/-- Reads a value that is a number. -/
def number (text : List Char) : Reading JsonValue :=
  match numeral? text with
  | some (n, rest) => (.number n, some rest)
  | none => (.malformed, none)

mutual

/-- Reads a value. -/
def value (fuel : Nat) (text : List Char) : Reading JsonValue :=
  match fuel with
  | 0 => (.malformed, none)
  | fuel + 1 =>
    match skipBlanks text with
    | 'n' :: 'u' :: 'l' :: 'l' :: rest => (.null, some rest)
    | 't' :: 'r' :: 'u' :: 'e' :: rest => (.boolean true, some rest)
    | 'f' :: 'a' :: 'l' :: 's' :: 'e' :: rest => (.boolean false, some rest)
    | '"' :: rest => string rest
    | '[' :: rest =>
      match skipBlanks rest with
      | ']' :: after => (.array [] true, some after)
      | _ =>
        let (found, after) := items fuel rest
        (.array found after.isSome, after)
    | '{' :: rest =>
      match skipBlanks rest with
      | '}' :: after => (.object [] true, some after)
      | _ =>
        let (found, after) := members fuel rest
        (.object found after.isSome, after)
    | rest => number rest

/-- Reads the items of a list up to its closing bracket. -/
def items (fuel : Nat) (text : List Char) : Reading (List JsonValue) :=
  match fuel with
  | 0 => ([.malformed], none)
  | fuel + 1 =>
    let (item, after) := value fuel text
    match after.map skipBlanks with
    | some (',' :: rest) =>
      let (more, after) := items fuel rest
      (item :: more, after)
    | some (']' :: rest) => ([item], some rest)
    | _ => ([item], none)

/-- Reads the members of an object up to its closing brace. -/
def members (fuel : Nat) (text : List Char) : Reading (List (JsonName × JsonValue)) :=
  match fuel with
  | 0 => ([(.absent, .malformed)], none)
  | fuel + 1 =>
    match skipBlanks text with
    | '"' :: rest =>
      let (name, after) : JsonName × Option (List Char) := match string rest with
        | (.string name, after) => (.text name, after)
        | (.unpaired, after) => (.unpaired, after)
        | (_, after) => (.absent, after)
      match after.map skipBlanks with
      | some (':' :: rest) =>
        let (member, after) := value fuel rest
        match after.map skipBlanks with
        | some (',' :: rest) =>
          let (more, after) := members fuel rest
          ((name, member) :: more, after)
        | some ('}' :: rest) => ([(name, member)], some rest)
        | _ => ([(name, member)], none)
      | _ => ([(name, .malformed)], none)
    | _ => ([(.absent, .malformed)], none)

end

end JsonReader

/-- A JSON text as far as it can be read, and whether nothing but blanks follows its value. -/
structure JsonText where
  value : JsonValue
  ended : Bool
deriving Repr

/-- Reads a JSON text. -/
def JsonText.ofText (text : String) : JsonText :=
  let chars := text.toList
  let (value, after) := JsonReader.value (2 * chars.length + 2) chars
  ⟨value, after.all fun rest => (JsonReader.skipBlanks rest).isEmpty⟩

end BeaconMap
