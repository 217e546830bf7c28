import BeaconMap.Number.NumberStyle
import BeaconMap.Text.Quoted
/-!
# Why a document is refused

A document is refused because its text is malformed or because its values do not have the shape that is asked
for. `Problem` names the causes and `Problem.message` words those that concern the shape. A reader of documents may say
more than that about a text, such as where in it the problem is (`Wording`).
-/

namespace BeaconMap

/-- A value as it is named when it is not what was expected. -/
inductive Found where
  | null
  | boolean (value : Bool)
  | integer (value : Int)
  | real (value : Binary64)
  | string (value : String)
  | sequence
  | map
deriving DecidableEq, Repr

/-- The kinds of document. -/
inductive DocumentKind where
  | json
  | toml
deriving DecidableEq, Repr

/-- The style in which a report about a document writes a number. -/
def DocumentKind.numbers : DocumentKind → NumberStyle
  | .json => .document
  | .toml => .pointed

/-- What was found in a document, in words. -/
def Found.text (kind : DocumentKind) : Found → String
  | .null => "null"
  | .boolean true => "boolean `true`"
  | .boolean false => "boolean `false`"
  | .integer value => "integer `" ++ value.repr ++ "`"
  | .real value => "floating point `" ++ kind.numbers.text value ++ "`"
  | .string value => "string " ++ quoted value
  | .sequence => "sequence"
  | .map => "map"

/-- What a value was expected to be. -/
inductive Expected where
  | int32
  | uint32
  | real
  | boolean
  | string
  | path
  | sequence
  | unit
  | record (name : String)
deriving DecidableEq, Repr

/-- What was expected, in words. -/
def Expected.text : Expected → String
  | .int32 => "i32"
  | .uint32 => "u32"
  | .real => "f64"
  | .boolean => "a boolean"
  | .string => "a string"
  | .path => "path string"
  | .sequence => "a sequence"
  | .unit => "unit"
  | .record name => "struct " ++ name

/-- Why a document is refused. -/
inductive Problem where
  /-- The text is not a document of its format. -/
  | malformed
  | missingField (name : String)
  | duplicateField (name : String)
  | unknownVariant (name : String) (known : List String)
  | invalidType (found : Found) (expected : Expected)
  | invalidValue (value : Int) (expected : Expected)
  | invalidLength (length : Nat) (record : String) (fields : Nat)
  /-- Neither a name nor a table stands for a variant. -/
  | noVariant
  /-- A table that stands for a variant has no key. -/
  | noKey
  /-- A table that stands for a variant has more than one key. -/
  | severalKeys
  /-- A variant carries something where it should carry an empty value of this kind. -/
  | notEmpty (kind : String)
  /-- A variant carries a value of this kind where it should carry a table. -/
  | notTable (kind : String)
deriving DecidableEq, Repr

namespace Problem

/-- A name between grave accents. -/
def named (name : String) : String := "`" ++ name ++ "`"

/-- The known variants, in words. -/
def alternatives : List String → String
  | [a] => named a
  | [a, b] => named a ++ " or " ++ named b
  | names => "one of " ++ ", ".intercalate (names.map named)

/-- The text of a problem with a document. -/
def message (kind : DocumentKind) : Problem → String
  | .malformed => "malformed document"
  | .missingField name => "missing field " ++ named name
  | .duplicateField name => "duplicate field " ++ named name
  | .unknownVariant name known => "unknown variant " ++ named name ++ ", expected " ++ alternatives known
  | .invalidType found expected => "invalid type: " ++ found.text kind ++ ", expected " ++ expected.text
  | .invalidValue value expected =>
    "invalid value: " ++ (Found.integer value).text kind ++ ", expected " ++ expected.text
  | .invalidLength length record fields =>
    "invalid length " ++ length.repr ++ ", expected struct " ++ record ++ " with " ++ fields.repr ++
      (if fields = 1 then " element" else " elements")
  | .noVariant => "wanted string or table"
  | .noKey => "wanted exactly 1 element, found 0 elements"
  | .severalKeys => "wanted exactly 1 element, more than 1 element"
  | .notEmpty kind => "expected empty " ++ kind
  | .notTable kind => "expected table, found " ++ kind

end Problem

/-- What the readers of documents say of a text that they have a problem with. -/
abbrev Wording := DocumentKind → String → Problem → String

/-- The wording that names the problem and leaves out where it is. -/
def Wording.plain : Wording := fun kind _ problem => problem.message kind

end BeaconMap
