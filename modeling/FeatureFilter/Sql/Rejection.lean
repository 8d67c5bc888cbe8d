import FeatureFilter.Filter.Operator
import FeatureFilter.Filter.ReadError

namespace FeatureFilter.Sql

/-- How many arguments an operation takes. -/
inductive Arity where
  | exactly (n : Nat)
  | atLeast (n : Nat)
  /-- The corners of a box in the plane or in space. -/
  | corners
deriving DecidableEq

def Arity.message : Arity → String
  | .exactly n => toString n
  | .atLeast n => "at least " ++ toString n
  | .corners => "4 (2D) or 6 (3D)"

inductive Rejection where
  | unreadable (e : ReadError)
  | unsupportedOperator (op : String)
  | unsupportedFunction (name : String)
  | argumentCount (op : String) (expected : Arity) (found : Nat)
  | notQueryable (property collection : String) (queryables : List String)
  | unmappedProperty (property collection : String)
  | noGeometryColumn (collection : String)
  | nonNumericBox (found : String)
  | emptyArray
  | unsupportedExpression (what : String)
  | bareOperator (token : String)
  | tooDeep (depth limit : Nat)

/-- The operators that a filter may use, in the order in which they are reported. -/
def supportedOperators : List String :=
  ["and", "or"] ++ ComparisonOp.all.map ComparisonOp.name ++
    ["not", "like", "between", "in", "isnull"] ++ SpatialOp.all.map SpatialOp.name ++
    [FunctionName.distanceWithin.name]

namespace Rejection

def message : Rejection → String
  | .unreadable e => "Invalid filter syntax: " ++ e.message
  | .unsupportedOperator op =>
    "Unsupported operator '" ++ op ++ "'. Supported operators: " ++
      String.intercalate ", " supportedOperators
  | .unsupportedFunction name => "Unsupported function '" ++ name ++ "'"
  | .argumentCount op expected found =>
    "'" ++ op ++ "' expects " ++ expected.message ++ " arguments, got " ++ toString found
  | .notQueryable property collection queryables =>
    "Property '" ++ property ++ "' is not queryable for collection '" ++ collection ++
      "'. Queryable properties: " ++ String.intercalate ", " queryables
  | .unmappedProperty property collection =>
    "Property '" ++ property ++ "' of collection '" ++ collection ++ "' has no column mapping"
  | .noGeometryColumn collection =>
    "Collection '" ++ collection ++ "' has no geometry column configured"
  | .nonNumericBox found => "BBOX coordinates must be numeric, found " ++ found
  | .emptyArray => "Empty list is not allowed in a filter"
  | .unsupportedExpression what => what ++ " expressions are not supported in filters"
  | .bareOperator token => "Operator '" ++ token ++ "' is missing its operands"
  | .tooDeep depth limit =>
    "Filter nesting depth " ++ toString depth ++ " exceeds the limit of " ++ toString limit

end Rejection
end FeatureFilter.Sql
