import FeatureFilter.Filter.Expr
import FeatureFilter.Geometry.Wkt
import FeatureFilter.Sql.Draft

namespace FeatureFilter.Sql

/-- The function that tests how two geometries lie to each other. -/
def spatialFunction : SpatialOp → String
  | .intersects => "ST_Intersects"
  | .within => "ST_Within"
  | .disjoint => "ST_Disjoint"
  | .equals => "ST_Equals"
  | .touches => "ST_Touches"
  | .overlaps => "ST_Overlaps"
  | .crosses => "ST_Crosses"
  | .contains => "ST_Contains"

/-- A number, possibly negated. -/
def isNumeric : Expr → Bool
  | .literal _ value => value.isNumeric
  | .unary _ .minus operand => isNumeric operand
  | _ => false

/-- What stands in place of a number. -/
def foundInBox : Expr → String
  | .literal _ value => value.typeName
  | e => e.kindName

/-- Four items are the corners of a box in the plane. Of six, which are the corners of a box in
space, the third and the last are the heights and are left out. -/
def corners {α : Type} : List α → Option (List α)
  | [west, south, east, north] => some [west, south, east, north]
  | [west, south, _, east, north, _] => some [west, south, east, north]
  | _ => none

/-- The text between the operands of an operator, if predicates have it. -/
def operatorText? : BinaryOp → Option String
  | .and => some " AND "
  | .or => some " OR "
  | .comparison op => some (" " ++ op.name ++ " ")
  | .spatial _ => none
  | .arithmetic _ => none

/-- Writing into a draft. A rejection leaves what was written before it. -/
abbrev Writing := EStateM Rejection Draft

namespace Writing

def push (text : String) : Writing Unit := modify (·.push text)

def param (v : Value) : Writing Unit := modify (·.bind v)

/-- The quoted column of a property. -/
def column (property : String) : Writing Unit := do
  let d ← get
  let name ← MonadExcept.ofExcept (d.collection.resolve property)
  push (d.dialect.quoteColumn name)

/-- Null and the truth values are written, all other literals are bound. -/
def literal : Literal → Writing Unit
  | .null => push "NULL"
  | .boolean true => push "TRUE"
  | .boolean false => push "FALSE"
  | .integer n => param (.bigint n)
  | .number x => param (.double x)
  | .string s => param (.text s)
  | .timestamp t => param (.timestamp t)
  | .date d => param (.date d)

/-- Items with commas between them. -/
def list : List (Writing Unit) → Writing Unit
  | [] => pure ()
  | item :: items => do
    item
    items.forM fun item => do
      push ", "
      item

def binary (op : BinaryOp) (left right : Writing Unit) : Writing Unit :=
  match operatorText? op with
  | some text => do
    push "("
    left
    push text
    right
    push ")"
  | none => throw (.unsupportedOperator op.name)

/-- How two geometries lie to each other. A property comes first, on whichever side it was
written. -/
def spatial (op : SpatialOp) (left right : Expr) (writeLeft writeRight : Writing Unit) :
    Writing Unit := do
  let swap := !left.isProperty && right.isProperty
  push (spatialFunction op)
  push "("
  if swap then writeRight else writeLeft
  push ", "
  if swap then writeLeft else writeRight
  push ")"

/-- Whether two geometries are within a distance in meters. -/
def distanceWithin (first second distance : Writing Unit) : Writing Unit := do
  push "ST_DWithin("
  first
  push "::geography, "
  second
  push "::geography, "
  distance
  push ")"

def function (name : FunctionName) (args : List Expr) (items : List (Writing Unit)) :
    Writing Unit :=
  match name with
  | .other name => throw (.unsupportedFunction name)
  | .spatial op =>
    match args, items with
    | left :: right :: _, writeLeft :: writeRight :: _ =>
      spatial op left right writeLeft writeRight
    | _, _ => throw (.argumentCount name.name (.atLeast 2) args.length)
  | .distanceWithin =>
    match items with
    | first :: second :: distance :: _ => distanceWithin first second distance
    | _ => throw (.argumentCount name.name (.atLeast 3) args.length)

/-- A comparison of the first item with the others. -/
def advanced (op : AdvancedOp) (negated : Bool) (items : List (Writing Unit)) : Writing Unit :=
  let no := if negated then " NOT" else ""
  match op, items with
  | .like, [subject, pattern] => do
    push "("
    subject
    push (no ++ " LIKE ")
    pattern
    push ")"
  | .like, _ => throw (.argumentCount op.name (.exactly 2) items.length)
  | .between, [subject, low, high] => do
    push "("
    subject
    push (no ++ " BETWEEN ")
    low
    push " AND "
    high
    push ")"
  | .between, _ => throw (.argumentCount op.name (.exactly 3) items.length)
  | .isIn, subject :: first :: rest => do
    push "("
    subject
    push (no ++ " IN (")
    list (first :: rest)
    push "))"
  | .isIn, _ => throw (.argumentCount op.name (.atLeast 2) items.length)

/-- A geometry is bound as text; its coordinates are longitudes and latitudes. -/
def geometry (wkt : String) : Writing Unit := do
  push "ST_GeomFromText("
  param (.text wkt)
  push ", 4326)"

def box (exprs : List Expr) (items : List (Writing Unit)) : Writing Unit :=
  match corners items with
  | none => throw (.argumentCount "bbox" .corners exprs.length)
  | some corners =>
    match exprs.find? (!isNumeric ·) with
    | some e => throw (.nonNumericBox (foundInBox e))
    | none => do
      push "ST_MakeEnvelope("
      corners.forM fun corner => do
        corner
        push ", "
      push "4326)"

mutual

/-- Writes the predicate of a filter. -/
def render : Expr → Writing Unit
  | .binary _ op left right =>
    match op with
    | .spatial op => spatial op left right (render left) (render right)
    | op => binary op (render left) (render right)
  | .call _ name args => function name args (renderEach args)
  | .advanced _ op negated args => advanced op negated (renderEach args)
  | .property _ name => column name
  | .literal _ value => literal value
  | .geometry _ value => geometry value.wkt
  | .geometries _ members => geometry (Geometry.collectionWkt members)
  | .box _ items => box items (renderEach items)
  -- In parentheses of their own, so that both can be operands.
  | .unary _ .not operand => do
    push "(NOT ("
    render operand
    push "))"
  | .unary _ .minus operand => do
    push "(-"
    render operand
    push ")"
  | .group _ inner => do
    push "("
    render inner
    push ")"
  | .array _ items =>
    if items.isEmpty then throw .emptyArray
    else do
      push "("
      list (renderEach items)
      push ")"
  | .isNull _ negated operand => do
    push "("
    render operand
    push (if negated then " IS NOT NULL)" else " IS NULL)")
  | .interval .. => throw (.unsupportedExpression "Interval")
  | .operator _ token => throw (.bareOperator token)

def renderEach : List Expr → List (Writing Unit)
  | [] => []
  | e :: es => render e :: renderEach es

end

end Writing

/-- Writes the predicate of a filter, up to the first rejection if there is one. -/
def Draft.render (d : Draft) (e : Expr) : Option Rejection × Draft :=
  match (Writing.render e).run d with
  | .ok () d => (none, d)
  | .error r d => (some r, d)

end FeatureFilter.Sql
