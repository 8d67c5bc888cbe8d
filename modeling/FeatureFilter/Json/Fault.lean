import FeatureFilter.Json.Printer

namespace FeatureFilter.Json

/-- What is wrong with a JSON text or with the value it holds. -/
inductive Problem where
  | endInValue
  | endInArray
  | endInObject
  | endInString
  | expectedValue
  | expectedWord
  | expectedColon
  | expectedCommaOrBracket
  | expectedCommaOrBrace
  | trailingComma
  | trailingCharacters
  | keyNotString
  | invalidNumber
  | numberOutOfRange
  | invalidEscape
  | controlCharacter
  | loneSurrogate
  | unfinishedSurrogate
  | tooDeep
  /-- A value of another kind than the reader takes. -/
  | wrongType (found expected : String)
  /-- An array that ends before the element with this index. -/
  | wrongLength (length : Nat) (expected : String)
  | missingField (name : String)
  | duplicateField (name : String)
deriving DecidableEq

def Problem.message : Problem → String
  | .endInValue => "EOF while parsing a value"
  | .endInArray => "EOF while parsing a list"
  | .endInObject => "EOF while parsing an object"
  | .endInString => "EOF while parsing a string"
  | .expectedValue => "expected value"
  | .expectedWord => "expected ident"
  | .expectedColon => "expected `:`"
  | .expectedCommaOrBracket => "expected `,` or `]`"
  | .expectedCommaOrBrace => "expected `,` or `\x7d`"
  | .trailingComma => "trailing comma"
  | .trailingCharacters => "trailing characters"
  | .keyNotString => "key must be a string"
  | .invalidNumber => "invalid number"
  | .numberOutOfRange => "number out of range"
  | .invalidEscape => "invalid escape"
  | .controlCharacter => "control character (\\u0000-\\u001F) found while parsing a string"
  | .loneSurrogate => "lone leading surrogate in hex escape"
  | .unfinishedSurrogate => "unexpected end of hex escape"
  | .tooDeep => "recursion limit exceeded"
  | .wrongType found expected => "invalid type: " ++ found ++ ", expected " ++ expected
  | .wrongLength length expected =>
    "invalid length " ++ toString length ++ ", expected " ++ expected
  | .missingField name => "missing field `" ++ name ++ "`"
  | .duplicateField name => "duplicate field `" ++ name ++ "`"

/-- A problem met while `unread` was still to be read, `past` bytes into it. -/
structure Fault where
  problem : Problem
  unread : List Char
  past : Nat

namespace Fault

/-- A problem behind the last byte consumed. -/
def consumed (problem : Problem) (unread : List Char) : Fault := ⟨problem, unread, 0⟩

/-- A problem with the next byte, which counts as seen; at the end there is none. -/
def peeked (problem : Problem) (unread : List Char) : Fault :=
  ⟨problem, unread, min 1 unread.length⟩

end Fault

def byteLength (cs : List Char) : Nat := cs.foldr (fun c n => c.utf8Size + n) 0

/-- The line and the bytes of that line within the first `n` bytes of a text. -/
def placeAt : Nat → List Char → Nat × Nat → Nat × Nat
  | _, [], place => place
  | n, c :: cs, (line, column) =>
    if n < c.utf8Size then (line, column + n)
    else if c = '\n' then placeAt (n - 1) cs (line + 1, 0)
    else placeAt (n - c.utf8Size) cs (line, column + c.utf8Size)

/-- A problem and the line and byte column where a text shows it. -/
structure Error where
  problem : Problem
  line : Nat
  column : Nat
deriving DecidableEq

namespace Error

def message (e : Error) : String :=
  e.problem.message ++ " at line " ++ toString e.line ++ " column " ++ toString e.column

end Error

/-- Places a fault in the text that has it. -/
def Fault.locate (text : List Char) (f : Fault) : Error :=
  let (line, column) := placeAt (byteLength text - byteLength f.unread + f.past) text (1, 0)
  ⟨f.problem, line, column⟩

/-- What a reader makes of a text: a value and the text behind it, or a fault. -/
abbrev Reader (α : Type) := List Char → Except Fault (α × List Char)

end FeatureFilter.Json
