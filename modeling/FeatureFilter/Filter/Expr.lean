import FeatureFilter.Filter.Literal
import FeatureFilter.Filter.Operator
import FeatureFilter.Geometry.Basic
import FeatureFilter.Text.Position

namespace FeatureFilter

open Text (Span)

inductive Expr where
  | binary (span : Span) (op : BinaryOp) (left right : Expr)
  | call (span : Span) (name : FunctionName) (args : List Expr)
  /-- A comparison of the first argument with the others. -/
  | advanced (span : Span) (op : AdvancedOp) (negated : Bool) (args : List Expr)
  | property (span : Span) (name : String)
  | literal (span : Span) (value : Literal)
  | geometry (span : Span) (value : Geometry)
  | geometries (span : Span) (members : List Geometry)
  | box (span : Span) (items : List Expr)
  | unary (span : Span) (op : UnaryOp) (operand : Expr)
  | group (span : Span) (inner : Expr)
  | array (span : Span) (items : List Expr)
  | isNull (span : Span) (negated : Bool) (operand : Expr)
  | interval (span : Span) (start stop : Expr)
  /-- An operator that was given no operands. -/
  | operator (span : Span) (token : String)

namespace Expr

def span : Expr → Span
  | .binary s .. | .call s .. | .advanced s .. | .property s _ | .literal s _ | .geometry s _
  | .geometries s _ | .box s _ | .unary s .. | .group s _ | .array s _ | .isNull s ..
  | .interval s .. | .operator s _ => s

def kindName : Expr → String
  | .binary .. => "binary"
  | .call .. => "function"
  | .advanced .. => "advanced comparison"
  | .property .. => "property"
  | .literal .. => "literal"
  | .geometry .. => "geometry"
  | .geometries .. => "geometry collection"
  | .box .. => "bbox"
  | .unary .. => "unary"
  | .group .. => "grouping"
  | .array .. => "array"
  | .isNull .. => "is null"
  | .interval .. => "interval"
  | .operator .. => "operator"

/-- A geometry as a node: a collection is a node of its own kind. -/
def ofGeometry (span : Span) : Geometry → Expr
  | .collection members => .geometries span members
  | g => .geometry span g

def isProperty : Expr → Bool
  | .property .. => true
  | _ => false

mutual

/-- The number of nodes on the longest path from the root to a leaf. -/
def depth : Expr → Nat
  | .binary _ _ left right => max left.depth right.depth + 1
  | .call _ _ args => depthEach args + 1
  | .advanced _ _ _ args => depthEach args + 1
  | .box _ items => depthEach items + 1
  | .array _ items => depthEach items + 1
  | .unary _ _ operand => operand.depth + 1
  | .isNull _ _ operand => operand.depth + 1
  | .group _ inner => inner.depth + 1
  | .interval _ start stop => max start.depth stop.depth + 1
  | .property .. | .literal .. | .geometry .. | .geometries .. | .operator .. => 1

/-- The greatest depth in a list. -/
def depthEach : List Expr → Nat
  | [] => 0
  | e :: es => max e.depth (depthEach es)

end

end Expr
end FeatureFilter
