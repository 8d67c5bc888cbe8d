import FeatureFilter.Grammar.Rule
import FeatureFilter.Json.Fault

namespace FeatureFilter

open Grammar (Rule)

inductive Defect where
  /-- The text ends the grammar's hold on it; these rules would have gone on. -/
  | unexpected (expected : List Rule)
  | invalidTimestamp (text : String)
  | invalidDate (text : String)
  | invalidNumber (text : String)
  | invalidCoordinate
  | unknownOperator (text : String)
  /-- A part that a tree does not have. -/
  | missing (what : String)
  /-- A tree without a part of this rule. -/
  | lacking (rule : Rule)
  /-- A tree of a rule that stands for something else. -/
  | misplaced (what : String) (rule : Rule)
  | empty (what : String)
  | invalidJson (e : Json.Error)
  | notString (what : String) (found : Json)
  | notArray (what : String) (found : Json)
  | unknownObject (keys : List String)
  | intervalBounds (found : Nat)
  | fewerThanTwoArguments (op : String) (found : Nat)
  | notOneArgument (op : String) (found : Nat)
  | notTwoArguments (op : String) (found : Nat)
  | noGeometries
  | noCoordinates (kind : String)
  | notGeometry (found : Json)
  | unknownGeometry (kind : String)
  | notOrdinate (found : Json)
  | ordinateCount (found : Nat)

/-- Alternatives as a sentence lists them. -/
def alternatives : List String → String
  | [] => ""
  | [a] => a
  | [a, b] => a ++ " or " ++ b
  | names => String.intercalate ", " names.dropLast ++ ", or " ++ names.getLastD ""

namespace Defect

def message : Defect → String
  | .unexpected expected => "Syntax error: expected " ++ alternatives (expected.map Rule.name)
  | .invalidTimestamp text => "Invalid timestamp: '" ++ text ++ "'"
  | .invalidDate text => "Invalid date: '" ++ text ++ "'"
  | .invalidNumber text => "Invalid number: " ++ text
  | .invalidCoordinate => "Invalid coordinate"
  | .unknownOperator text => "Unknown operator: " ++ text
  | .missing what => "Missing " ++ what
  | .lacking rule => "Expected " ++ rule.name
  | .misplaced what rule => "Unexpected " ++ what ++ ": " ++ rule.name
  | .empty what => "Empty " ++ what
  | .invalidJson e => "Invalid JSON: " ++ e.message
  | .notString what found => "Expected a string for '" ++ what ++ "', found " ++ found.compact
  | .notArray what found => "Expected an array for '" ++ what ++ "', found " ++ found.compact
  | .unknownObject keys =>
    "Unrecognized CQL2-JSON object with keys [" ++ String.intercalate ", " keys ++ "]"
  | .intervalBounds found => "Interval expects 2 bounds, found " ++ toString found
  | .fewerThanTwoArguments op found =>
    "'" ++ op ++ "' expects at least 2 arguments, found " ++ toString found
  | .notOneArgument op found => "'" ++ op ++ "' expects 1 argument, found " ++ toString found
  | .notTwoArguments op found => "'" ++ op ++ "' expects 2 arguments, found " ++ toString found
  | .noGeometries => "GeometryCollection without 'geometries'"
  | .noCoordinates kind => kind ++ " without 'coordinates'"
  | .notGeometry found => "Expected a geometry, found " ++ found.compact
  | .unknownGeometry kind => "Unsupported GeoJSON geometry type: '" ++ kind ++ "'"
  | .notOrdinate found => "Invalid ordinate: " ++ found.compact
  | .ordinateCount found => "Expected 2 or 3 ordinates, found " ++ toString found

end Defect

/-- A defect and its place. A defect of the JSON form that is not one of the JSON text has no place:
its line and column are zero. -/
structure ReadError where
  defect : Defect
  line : Nat
  column : Nat

namespace ReadError

def unplaced (d : Defect) : ReadError := ⟨d, 0, 0⟩

def message (e : ReadError) : String :=
  "Parse error at line " ++ toString e.line ++ ", column " ++ toString e.column ++ ": " ++
    e.defect.message

end ReadError
end FeatureFilter
