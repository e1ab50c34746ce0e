import ImportAtlas.Decimal.Shortest
import ImportAtlas.Json.Basic
import ImportAtlas.Text.Quoted

/-!
# Why a document is refused

Main definitions:

* `ImportAtlas.Json.Cause` — what is wrong;
* `ImportAtlas.Json.Error` — what is wrong and where;
* `ImportAtlas.Json.Error.message` — the same in words;
* `ImportAtlas.Json.Number.text` — how numbers are written.
-/

set_option autoImplicit false

namespace ImportAtlas.Json

/-- Numbers are written without an exponent up to sixteen digits before the point and four zeros
after it. -/
def numberFormat : Decimal.Format := ⟨16, 4⟩

/-- The text of a number. -/
def Number.text : Number → List Char
  | .natural n => Nat.toDigits 10 n
  | .negative n => '-' :: Nat.toDigits 10 n
  | .real x => x.text numberFormat

/-- A value that stands where another kind of value is expected. -/
inductive Found where
  | null
  | bool (b : Bool)
  | number (n : Number)
  | string (s : String)
  | array
  | object
deriving DecidableEq, Repr

/-- The value in words. -/
def Found.describe : Found → String
  | .null => "null"
  | .bool true => "boolean `true`"
  | .bool false => "boolean `false`"
  | .number (.real x) =>
      "floating point `" ++ String.ofList (Number.text (.real x)) ++ "`"
  | .number n => "integer `" ++ String.ofList n.text ++ "`"
  | .string s => "string " ++ Text.quoted false s
  | .array => "sequence"
  | .object => "map"

/-- A value as one that stands where another kind of value is expected. -/
def found : Json → Found
  | .null => .null
  | .bool b => .bool b
  | .number n => .number n
  | .string s => .string s
  | .array _ => .array
  | .object _ => .object

/-- What is wrong with a document. -/
inductive Cause where
  | endInArray
  | endInObject
  | endInString
  | endInValue
  | expectedColon
  | expectedCommaOrBracket
  | expectedCommaOrBrace
  | expectedWord
  | expectedValue
  | invalidEscape
  | invalidNumber
  | numberOutOfRange
  | controlCharacter
  | keyNotString
  | loneSurrogate
  | endInEscape
  | trailingComma
  | trailingCharacters
  | tooDeep
  | wrongType (found : Found) (expected : String)
  | duplicateKey (key : String)
deriving DecidableEq, Repr

/-- What is wrong, in words. -/
def Cause.describe : Cause → String
  | .endInArray => "EOF while parsing a list"
  | .endInObject => "EOF while parsing an object"
  | .endInString => "EOF while parsing a string"
  | .endInValue => "EOF while parsing a value"
  | .expectedColon => "expected `:`"
  | .expectedCommaOrBracket => "expected `,` or `]`"
  | .expectedCommaOrBrace => "expected `,` or `\x7d`"
  | .expectedWord => "expected ident"
  | .expectedValue => "expected value"
  | .invalidEscape => "invalid escape"
  | .invalidNumber => "invalid number"
  | .numberOutOfRange => "number out of range"
  | .controlCharacter => "control character (\\u0000-\\u001F) found while parsing a string"
  | .keyNotString => "key must be a string"
  | .loneSurrogate => "lone leading surrogate in hex escape"
  | .endInEscape => "unexpected end of hex escape"
  | .trailingComma => "trailing comma"
  | .trailingCharacters => "trailing characters"
  | .tooDeep => "recursion limit exceeded"
  | .wrongType found expected => "invalid type: " ++ found.describe ++ ", expected " ++ expected
  | .duplicateKey key => "duplicate field `" ++ key ++ "`"

/-- What is wrong and how many bytes of the document come before the place. -/
structure Fault where
  cause : Cause
  offset : Nat
deriving DecidableEq, Repr

/-- What is wrong and where: the line, from one, and the number of bytes on it before the place. -/
structure Error where
  cause : Cause
  line : Nat
  column : Nat
deriving DecidableEq, Repr

/-- The error in words. -/
def Error.message (e : Error) : String :=
  s!"{e.cause.describe} at line {e.line} column {e.column}"

/-- The line and column after so many bytes of a text, counted on from a line and column. -/
def locate : List Char → Nat → Nat → Nat → Nat × Nat
  | [], _, line, column => (line, column)
  | c :: rest, offset, line, column =>
      if offset < c.utf8Size then (line, column + offset)
      else if c = '\n' then locate rest (offset - 1) (line + 1) 0
      else locate rest (offset - c.utf8Size) line (column + c.utf8Size)

/-- The error for a fault in a text. -/
def Fault.toError (text : String) (f : Fault) : Error :=
  let (line, column) := locate text.toList f.offset 1 0
  ⟨f.cause, line, column⟩

end ImportAtlas.Json
