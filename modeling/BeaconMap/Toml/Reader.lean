import BeaconMap.Toml.Scalar
/-!
# Reading TOML

A document is read statement by statement into the entries of its top table. A statement is a header, which says
where the keys after it go, or a key with its value. What a table may still get is checked as it is read
(`TomlEntries`), so a document that says something twice is malformed.
-/

namespace BeaconMap

namespace TomlReader

/-! ## Keys -/

/-- A character of a key without quotation marks. -/
def isBareKeyChar (c : Char) : Bool := c.isAlphanum || c == '_' || c == '-'

/-- Reads one key. -/
def simpleKey (text : List Char) : Option (String × List Char) :=
  match shortString text with
  | some found => some found
  | none =>
    let name := text.takeWhile isBareKeyChar
    if name.isEmpty then none else some (String.ofList name, text.dropWhile isBareKeyChar)

/-- The most keys that may stand in one path. -/
def maxKeys : Nat := 79

/-- Reads a path of at most `most` keys with points and blanks between them: the keys before the last, and the last. -/
def keyPath (most : Nat) (text : List Char) : Option ((List String × String) × List Char) :=
  match most with
  | 0 => none
  | most + 1 => do
    let (key, rest) ← simpleKey (skipBlanks text)
    match skipBlanks rest with
    | '.' :: rest =>
      let ((path, last), rest) ← keyPath most rest
      return ((key :: path, last), rest)
    | rest => return (([], key), rest)

/-! ## Values -/

/-- The text after its leading blanks, line ends and comments. -/
def skipGaps (inComment : Bool) : List Char → List Char
  | [] => []
  | '\r' :: '\n' :: rest => skipGaps false rest
  | c :: rest =>
    if c = '\n' then skipGaps false rest
    else if inComment then
      if isTextChar c then skipGaps true rest else c :: rest
    else if isBlank c then skipGaps false rest
    else if c = '#' then skipGaps true rest
    else c :: rest

/-- A key under a path, with its value. -/
structure Pair where
  path : List String
  key : String
  value : TomlValue

/-- Reads a key, the equals sign and a value. -/
def pair (read : List Char → Option (TomlValue × List Char)) (text : List Char) : Option (Pair × List Char) := do
  let ((path, key), rest) ← keyPath maxKeys text
  let (value, rest) ← read (skipBlanks (← after? '=' rest))
  return (⟨path, key, value⟩, rest)

/-- Reads the items of a list up to its closing bracket; a comma may follow the last. -/
def items (read : List Char → Option (TomlValue × List Char)) (fuel : Nat) (text : List Char) :
    Option (List TomlValue × List Char) :=
  match fuel with
  | 0 => none
  | fuel + 1 =>
    match skipGaps false text with
    | ']' :: rest => some ([], rest)
    | text => do
      let (item, rest) ← read text
      match skipGaps false rest with
      | ',' :: rest =>
        let (more, rest) ← items read fuel rest
        return (item :: more, rest)
      | ']' :: rest => return ([item], rest)
      | _ => none

/-- Reads the pairs between braces up to the closing one, at least one, on one line. -/
def pairs (read : List Char → Option (TomlValue × List Char)) (fuel : Nat) (text : List Char) :
    Option (List Pair × List Char) :=
  match fuel with
  | 0 => none
  | fuel + 1 => do
    let (first, rest) ← pair read text
    match skipBlanks rest with
    | ',' :: rest =>
      let (more, rest) ← pairs read fuel rest
      return (first :: more, rest)
    | '\x7d' :: rest => return ([first], rest)
    | _ => none

/-- The table between braces with these pairs. -/
def bracesTable (pairs : List Pair) : Option TomlValue := do
  let entries ← pairs.foldlM (fun entries p => TomlEntries.addDotted entries p.path p.key p.value) []
  return .table .braces entries

/-- How deep lists and tables may stand in each other. -/
def maxDepth : Nat := 79

/-- Reads a value in which lists and tables stand at most `depth` deep in each other. -/
def value (depth : Nat) (text : List Char) : Option (TomlValue × List Char) :=
  match depth, text with
  | depth + 1, '[' :: rest => do
    let (found, after) ← items (value depth) (rest.length + 1) rest
    return (.array found, after)
  | depth + 1, '\x7b' :: rest =>
    match skipBlanks rest with
    | '\x7d' :: after => some (.table .braces [], after)
    | _ => do
      let (found, after) ← pairs (value depth) (rest.length + 1) rest
      return (← bracesTable found, after)
  | _, text => scalar text

/-! ## Statements -/

/-- The text after blanks, a comment if there is one, and the end of the line or of the text. -/
def restOfLine? (text : List Char) : Option (List Char) :=
  let text := match skipBlanks text with
    | '#' :: comment => comment.dropWhile isTextChar
    | text => text
  if text.isEmpty then some [] else newline? text

/-- A document read so far: the entries of its top table, and the path of the header that is in force. -/
structure Progress where
  entries : TomlEntries := []
  path : List String := []

/-- Reads a header or a key with its value. -/
def statement (progress : Progress) : List Char → Option (Progress × List Char)
  | '[' :: '[' :: rest => do
    let ((path, key), rest) ← keyPath maxKeys rest
    let rest ← after? ']' (← after? ']' rest)
    let entries ← progress.entries.changeAt (TomlEntries.extendTables key) path
    return (⟨entries, path ++ [key]⟩, rest)
  | '[' :: rest => do
    let ((path, key), rest) ← keyPath maxKeys rest
    let rest ← after? ']' rest
    let entries ← progress.entries.changeAt (TomlEntries.defineTable key) path
    return (⟨entries, path ++ [key]⟩, rest)
  | text => do
    let (found, rest) ← pair (value maxDepth) text
    let entries ← progress.entries.changeAt (·.addDotted found.path found.key found.value) progress.path
    return ({ progress with entries }, rest)

/-- Reads statements up to the end of the text. -/
def statements (fuel : Nat) (progress : Progress) (text : List Char) : Option TomlEntries :=
  match fuel with
  | 0 => none
  | fuel + 1 =>
    if text.isEmpty then some progress.entries
    else match restOfLine? text with
      | some rest => statements fuel progress rest
      | none => do
        let (progress, rest) ← statement progress (skipBlanks text)
        statements fuel progress (← restOfLine? rest)

end TomlReader

/-- Reads a TOML document, which may start with a byte order mark. -/
def TomlEntries.ofText? (text : String) : Option TomlEntries :=
  let chars := match text.toList with
    | '\ufeff' :: rest => rest
    | chars => chars
  TomlReader.statements (chars.length + 1) {} chars

end BeaconMap
