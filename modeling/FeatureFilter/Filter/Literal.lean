import FeatureFilter.Number.Layout
import FeatureFilter.Text.Case
import FeatureFilter.Text.Quoted
import FeatureFilter.Time.Instant

namespace FeatureFilter

open Number (Binary64 Decimal Layout)
open Time (Date Instant)

inductive Literal where
  | null
  | boolean (b : Bool)
  | integer (n : Int64)
  | number (x : Binary64)
  | string (s : String)
  | timestamp (t : Instant)
  | date (d : Date)
deriving DecidableEq

/-- An integer as a 64-bit integer, if it is in range. -/
def int64? (n : Int) : Option Int64 :=
  if Int64.minValue.toInt ≤ n ∧ n ≤ Int64.maxValue.toInt then some (.ofInt n) else none

/-- A sign in front of a numeral: whether it is a minus, and the rest. -/
def splitSign : List Char → Bool × List Char
  | '-' :: cs => (true, cs)
  | '+' :: cs => (false, cs)
  | cs => (false, cs)

/-- The number that digits stand for: there is one at least, and nothing else. -/
def digits? (cs : List Char) : Option Nat :=
  if !cs.isEmpty && cs.all Char.isDigit then some (Time.digitsValue cs) else none

/-- The exponent of a numeral behind its mark, or zero where there is none. -/
def exponent? : List Char → Option Int
  | [] => some 0
  | _ :: cs =>
    let (negative, ds) := splitSign cs
    (digits? ds).map fun (n : Nat) => if negative then -(n : Int) else (n : Int)

/-- The decimal that an unsigned numeral stands for: digits, perhaps with a point before, between
or behind them, and perhaps with an exponent. -/
def decimal? (cs : List Char) : Option Decimal :=
  let mantissa := cs.takeWhile fun c => c != 'e' && c != 'E'
  let whole := mantissa.takeWhile (· != '.')
  let places := (mantissa.dropWhile (· != '.')).drop 1
  (digits? (whole ++ places)).bind fun digits =>
    (exponent? (cs.dropWhile fun c => c != 'e' && c != 'E')).map fun exponent =>
      ⟨digits, exponent - places.length⟩

/-- The double that is nearest to an unsigned numeral. Infinity has a name too; a double is always
a number. -/
def binary64? (negative : Bool) (cs : List Char) : Option Binary64 :=
  match decimal? cs with
  | some d => some (.ofDecimal negative d)
  | none =>
    if ["inf", "infinity"].contains (Text.lower (.ofList cs)) then some (.infinite negative)
    else none

namespace Literal

/-- The literal that a numeral stands for: digits alone are an integer as long as it fits 64 bits,
everything else is the nearest double. -/
def ofNumeral? (cs : List Char) : Option Literal :=
  let (negative, body) := splitSign cs
  let integer := (digits? body).bind fun n => int64? (if negative then -(n : Int) else n)
  match integer with
  | some n => some (.integer n)
  | none => (binary64? negative body).map .number

def typeName : Literal → String
  | .null => "null"
  | .boolean _ => "boolean"
  | .integer _ => "number"
  | .number _ => "number"
  | .string _ => "string"
  | .timestamp _ => "timestamp"
  | .date _ => "date"

/-- The value of a number as a double. -/
def toBinary64? : Literal → Option Binary64
  | .integer n => some (.ofInt n.toInt)
  | .number x => some x
  | _ => none

def isNumeric (l : Literal) : Bool := l.toBinary64?.isSome

/-- The literal as a filter text has it. -/
def write : Literal → String
  | .null => "null"
  | .boolean true => "true"
  | .boolean false => "false"
  | .integer n => toString n.toInt
  | .number x => Layout.plain.write x
  | .string s => .ofList (Text.quote '\'' s.toList)
  | .timestamp t => "TIMESTAMP('" ++ toString t ++ "')"
  | .date d => "DATE('" ++ toString d ++ "')"

end Literal
end FeatureFilter
