import ClassVeil.Json.Cursor
import ClassVeil.Text.Unseen

/-!
# What can be wrong with a JSON text

A text may be no JSON at all, or a value may not be of the kind that its place asks for. Each
cause has one wording, and every error that knows its place ends with line and column.

## Main definitions

* `Found`: the value that stands where another kind was expected.
* `Cause`, `Cause.message`: what is wrong.
* `Error`, `Error.message`: a cause and its place.
-/

namespace ClassVeil

namespace Json

/-- A value that stands in the place of another. -/
inductive Found where
  | null
  | boolean (value : Bool)
  | integer (text : String)
  | real (text : String)
  | string (value : String)
  | sequence
  | map
deriving DecidableEq, Repr

/-- A hexadecimal number in small letters. -/
def hexadecimal (n : Nat) : String := String.ofList (Nat.toDigits 16 n)

/-- A character between quotation marks: quotation marks, backslashes and what cannot be seen are
    escaped. -/
def quoteChar (c : Char) : String :=
  if c = '"' then "\\\""
  else if c = '\\' then "\\\\"
  else if c = '\t' then "\\t"
  else if c = '\n' then "\\n"
  else if c = '\r' then "\\r"
  else if c = '\x00' then "\\0"
  else if Text.isUnseen c then "\\u\x7b" ++ hexadecimal c.toNat ++ "\x7d"
  else String.ofList [c]

/-- A text between quotation marks. -/
def quote (s : String) : String := "\"" ++ String.join (s.toList.map quoteChar) ++ "\""

/-- The words for a value. -/
def Found.describe : Found → String
  | null => "null"
  | boolean true => "boolean `true`"
  | boolean false => "boolean `false`"
  | integer text => "integer `" ++ text ++ "`"
  | real text => "floating point `" ++ text ++ "`"
  | string value => "string " ++ quote value
  | sequence => "sequence"
  | map => "map"

/-- What is wrong. -/
inductive Cause where
  | endInList
  | endInObject
  | endInString
  | endInValue
  | expectedColon
  | expectedListCommaOrEnd
  | expectedObjectCommaOrEnd
  | expectedIdent
  | expectedValue
  | invalidEscape
  | invalidNumber
  | numberOutOfRange
  | keyMustBeString
  | controlCharacter
  | loneSurrogate
  | endOfHexEscape
  | trailingComma
  | trailingCharacters
  | invalidType (found : Found) (expected : String)
  | invalidValue (found : Found) (expected : String)
  | unknownVariant (found : String) (first second : String)
  | duplicateField (name : String)
  | rejected (reason : String)
deriving DecidableEq, Repr

/-- The wording of a cause. -/
def Cause.message : Cause → String
  | endInList => "EOF while parsing a list"
  | endInObject => "EOF while parsing an object"
  | endInString => "EOF while parsing a string"
  | endInValue => "EOF while parsing a value"
  | expectedColon => "expected `:`"
  | expectedListCommaOrEnd => "expected `,` or `]`"
  | expectedObjectCommaOrEnd => "expected `,` or `\x7d`"
  | expectedIdent => "expected ident"
  | expectedValue => "expected value"
  | invalidEscape => "invalid escape"
  | invalidNumber => "invalid number"
  | numberOutOfRange => "number out of range"
  | keyMustBeString => "key must be a string"
  | controlCharacter => "control character (\\u0000-\\u001F) found while parsing a string"
  | loneSurrogate => "lone leading surrogate in hex escape"
  | endOfHexEscape => "unexpected end of hex escape"
  | trailingComma => "trailing comma"
  | trailingCharacters => "trailing characters"
  | invalidType found expected => "invalid type: " ++ found.describe ++ ", expected " ++ expected
  | invalidValue found expected => "invalid value: " ++ found.describe ++ ", expected " ++ expected
  | unknownVariant found first second =>
    "unknown variant `" ++ found ++ "`, expected `" ++ first ++ "` or `" ++ second ++ "`"
  | duplicateField name => "duplicate field `" ++ name ++ "`"
  | rejected reason => reason

/-- A cause and the place where it was noticed; what concerns the value as a whole has no place. -/
structure Error where
  cause : Cause
  position : Option Position
deriving DecidableEq, Repr

/-- The message, with line and column if there is a place. -/
def Error.message (e : Error) : String :=
  match e.position with
  | none => e.cause.message
  | some p => e.cause.message ++ " at line " ++ toString p.line ++ " column " ++ toString p.column

/-- What is left to read, and what was read. -/
abbrev Result (α : Type) := Except Error (α × Cursor)

/-- An error about what has been consumed. -/
def Cursor.fail {α : Type} (c : Cursor) (cause : Cause) : Except Error α :=
  .error ⟨cause, some c.position⟩

/-- An error about the character that comes next. -/
def Cursor.failNext {α : Type} (c : Cursor) (cause : Cause) : Except Error α :=
  .error ⟨cause, some c.peekPosition⟩

end Json

end ClassVeil
