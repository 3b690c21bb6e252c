import Quoteboard.Decimal.Shortest
import Quoteboard.Text.Quoted

/-!
# Why a document is refused

The causes for which a document, or a value in it, is refused, and the wording of each.
-/

namespace Quoteboard.Json

open Quoteboard.Text

/-- A value met where another kind was expected. -/
inductive Found where
  | null
  | bool (value : Bool)
  | integer (value : Int)
  | real (value : Float)
  | text (value : String)
  | sequence
  | map
  deriving DecidableEq, Repr

/-- A kind of value that a place in a document asks for. -/
inductive Expected where
  | int64
  | double
  | sequence
  /-- A record, by its name. -/
  | record (name : String)
  deriving DecidableEq, Repr

/-- Why a document, or a value in it, is refused. -/
inductive Error where
  | cutList
  | cutObject
  | cutText
  | cutValue
  | expectedColon
  | expectedListEnd
  | expectedObjectEnd
  | expectedKeyword
  | expectedValue
  | invalidEscape
  | invalidNumber
  | numberOutOfRange
  | controlCharacter
  | keyNotText
  | loneSurrogate
  | unpairedSurrogate
  | trailingComma
  | trailingCharacters
  | tooDeep
  | missingField (name : String)
  | duplicateField (name : String)
  /-- An array that stands for a record ended after `length` of its `fields` fields. -/
  | invalidLength (length : Nat) (record : String) (fields : Nat)
  | invalidType (found : Found) (expected : Expected)
  /-- An integer that the expected kind cannot hold. -/
  | invalidValue (value : Int) (expected : Expected)
  /-- A value that is none of the alternatives of a union, by the union's name. -/
  | noVariant (union : String)
  deriving DecidableEq, Repr

/-- Doubles in messages: a point from five places below one up to sixteen digits above. -/
def messageStyle : Decimal.Style :=
  ⟨-5, 15, true⟩

/-- The wording of a value that was met. -/
def Found.message : Found → String
  | .null => "null"
  | .bool b => "boolean `" ++ (if b then "true" else "false") ++ "`"
  | .integer n => "integer `" ++ toString n ++ "`"
  | .real x => "floating point `" ++ messageStyle.text x ++ "`"
  | .text s => "string " ++ quoted s
  | .sequence => "sequence"
  | .map => "map"

/-- The wording of what was expected. -/
def Expected.message : Expected → String
  | .int64 => "i64"
  | .double => "f64"
  | .sequence => "a sequence"
  | .record name => "struct " ++ name

/-- The wording of a refusal. -/
def Error.message : Error → String
  | .cutList => "EOF while parsing a list"
  | .cutObject => "EOF while parsing an object"
  | .cutText => "EOF while parsing a string"
  | .cutValue => "EOF while parsing a value"
  | .expectedColon => "expected `:`"
  | .expectedListEnd => "expected `,` or `]`"
  | .expectedObjectEnd => "expected `,` or `\x7d`"
  | .expectedKeyword => "expected ident"
  | .expectedValue => "expected value"
  | .invalidEscape => "invalid escape"
  | .invalidNumber => "invalid number"
  | .numberOutOfRange => "number out of range"
  | .controlCharacter => "control character (\\u0000-\\u001F) found while parsing a string"
  | .keyNotText => "key must be a string"
  | .loneSurrogate => "lone leading surrogate in hex escape"
  | .unpairedSurrogate => "unexpected end of hex escape"
  | .trailingComma => "trailing comma"
  | .trailingCharacters => "trailing characters"
  | .tooDeep => "recursion limit exceeded"
  | .missingField name => "missing field `" ++ name ++ "`"
  | .duplicateField name => "duplicate field `" ++ name ++ "`"
  | .invalidLength n name k =>
    "invalid length " ++ toString n ++ ", expected struct " ++ name ++ " with " ++ toString k
      ++ " elements"
  | .invalidType found expected =>
    "invalid type: " ++ found.message ++ ", expected " ++ expected.message
  | .invalidValue n expected =>
    "invalid value: integer `" ++ toString n ++ "`, expected " ++ expected.message
  | .noVariant name => "data did not match any variant of untagged enum " ++ name

end Quoteboard.Json
