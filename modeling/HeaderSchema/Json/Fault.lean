import HeaderSchema.Decimal.Shortest
import HeaderSchema.Text.Quoted
import HeaderSchema.Text.Utf8

/-!
# Why a document is refused, and where

A fault has a cause and a place. The place is kept as the part of the input
that was still unread, so that it needs no bookkeeping while reading; the line
and the column are counted once the whole input is at hand. Columns count
bytes.
-/

namespace HeaderSchema

/-- What stands where something else was expected. -/
inductive Found where
  | null
  | boolean (value : Bool)
  | integer (value : Int)
  | float (value : Float)
  | text (value : String)
  | sequence
  | map

def Found.message : Found → String
  | .null => "null"
  | .boolean true => "boolean `true`"
  | .boolean false => "boolean `false`"
  | .integer value => s!"integer `{value}`"
  | .float value => s!"floating point `{Decimal.floatText value}`"
  | .text value => "string " ++ Quoted.encode value
  | .sequence => "sequence"
  | .map => "map"

/-- What a reader expects. -/
inductive Expected where
  | text
  | boolean
  | sequence
  | map
  | count
  | unit
  | record (name : String)

def Expected.message : Expected → String
  | .text => "a string"
  | .boolean => "a boolean"
  | .sequence => "a sequence"
  | .map => "a map"
  | .count => "usize"
  | .unit => "unit"
  | .record name => "struct " ++ name

/-- Why a document is refused. -/
inductive Cause where
  | endOfValue
  | endOfText
  | endOfList
  | endOfObject
  | colonExpected
  | listSeparatorExpected
  | objectSeparatorExpected
  | wordExpected
  | valueExpected
  | controlCharacter
  | badEscape
  | badNumber
  | numberRange
  | badCodePoint
  | keyExpected
  | loneSurrogate
  | endOfSurrogatePair
  | trailingComma
  | trailingCharacters
  | wrongType (found : Found) (expected : Expected)
  | negativeCount (value : Int)
  | unknownVariant (name : String) (known : List String)
  | missingField (key : String)
  | duplicateField (key : String)
  | tooShort (length : Nat) (record : String) (size : Nat)

/-- Names in backquotes, joined for a choice of two. -/
def variantNames (names : List String) : String :=
  " or ".intercalate (names.map fun name => "`" ++ name ++ "`")

def Cause.message : Cause → String
  | .endOfValue => "EOF while parsing a value"
  | .endOfText => "EOF while parsing a string"
  | .endOfList => "EOF while parsing a list"
  | .endOfObject => "EOF while parsing an object"
  | .colonExpected => "expected `:`"
  | .listSeparatorExpected => "expected `,` or `]`"
  | .objectSeparatorExpected => "expected `,` or `\x7d`"
  | .wordExpected => "expected ident"
  | .valueExpected => "expected value"
  | .controlCharacter => "control character (\\u0000-\\u001F) found while parsing a string"
  | .badEscape => "invalid escape"
  | .badNumber => "invalid number"
  | .numberRange => "number out of range"
  | .badCodePoint => "invalid unicode code point"
  | .keyExpected => "key must be a string"
  | .loneSurrogate => "lone leading surrogate in hex escape"
  | .endOfSurrogatePair => "unexpected end of hex escape"
  | .trailingComma => "trailing comma"
  | .trailingCharacters => "trailing characters"
  | .wrongType found expected =>
    "invalid type: " ++ found.message ++ ", expected " ++ expected.message
  | .negativeCount value => s!"invalid value: integer `{value}`, expected usize"
  | .unknownVariant name known =>
    s!"unknown variant `{name}`, expected " ++ variantNames known
  | .missingField key => s!"missing field `{key}`"
  | .duplicateField key => s!"duplicate field `{key}`"
  | .tooShort length record size =>
    s!"invalid length {length}, expected struct {record} with {size} element" ++
      (if size = 1 then "" else "s")

/-- A cause, the input that was unread at its place, and how many columns the
place lies before that point on its line. -/
structure Fault where
  cause : Cause
  rest : Bytes
  back : Nat := 0

structure Position where
  line : Nat
  column : Nat
deriving Repr, DecidableEq

def lineEnd : UInt8 := 0x0A

/-- The place right after the bytes: one line more than they end, and the bytes
since the last line end. -/
def Position.after (read : Bytes) : Position :=
  ⟨1 + read.count lineEnd, (read.reverse.takeWhile (· != lineEnd)).length⟩

/-- The place of a fault in the input. -/
def Fault.position (input : Bytes) (fault : Fault) : Position :=
  let place := Position.after (input.take (input.length - fault.rest.length))
  ⟨place.line, place.column - fault.back⟩

def Fault.message (input : Bytes) (fault : Fault) : String :=
  let place := fault.position input
  fault.cause.message ++ s!" at line {place.line} column {place.column}"

end HeaderSchema
