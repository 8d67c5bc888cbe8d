import FeatureFilter.Filter.Literal
import FeatureFilter.Json.Reader

namespace FeatureFilter.Sql

open Number (Binary64 Layout)
open Time (Date Instant)

inductive Value where
  | text (s : String)
  | bigint (n : Int64)
  | double (x : Binary64)
  | timestamp (t : Instant)
  | date (d : Date)
deriving DecidableEq

namespace Value

/-- The column type that a value has. -/
def typeName : Value → String
  | .text _ => "text"
  | .bigint _ => "bigint"
  | .double _ => "double precision"
  | .timestamp _ => "timestamptz"
  | .date _ => "date"

def write : Value → String
  | .text s => s
  | .bigint n => toString n.toInt
  | .double x => Layout.plain.write x
  | .timestamp t => toString t
  | .date d => toString d

def toJson : Value → Json
  | .text s => .string s
  | .bigint n => .integer n.toInt
  | .double x => .ofBinary64 x
  | .timestamp t => .string (toString t)
  | .date d => .string (toString d)

/-- Reads a string or a number; an integer that does not fit 64 bits is a double. Instants and dates
are strings here. -/
def ofJson? : Json → Option Value
  | .string s => some (.text s)
  | .integer n =>
    match int64? n with
    | some n => some (.bigint n)
    | none => some (.double (.ofInt n))
  | .float x => some (.double x)
  | _ => none

/-- Why a text does not hold a value. -/
inductive ValueError where
  | invalidJson (e : Json.Error)
  /-- The text holds neither a string nor a number. -/
  | otherKind

def ValueError.message : ValueError → String
  | .invalidJson e => e.message
  | .otherKind => "data did not match any variant of untagged enum Value"

/-- Reads the JSON text of a string or a number. What stands behind a value of another kind is not
looked at. -/
def ofJsonText (text : String) : Except ValueError Value :=
  let cs := text.toList
  let invalid (f : Json.Fault) : ValueError := .invalidJson (f.locate cs)
  match Json.value Json.depthLimit cs with
  | .error f => .error (invalid f)
  | .ok (j, rest) =>
    match ofJson? j with
    | none => .error .otherKind
    | some v =>
      match Json.finish rest with
      | .error f => .error (invalid f)
      | .ok () => .ok v

end Value
end FeatureFilter.Sql
