import FeatureFilter.Filter.Expr
import FeatureFilter.Json.Printer

namespace FeatureFilter

open Number (Binary64)
open Text (Span)
open Time (Date Instant)

/-- A choice with content. -/
def Json.tagged (tag : String) (body : Json) : Json := .object [(tag, body)]

namespace SpatialOp

def tag : SpatialOp → String
  | .intersects => "Intersects"
  | .within => "Within"
  | .disjoint => "Disjoint"
  | .equals => "Equals"
  | .touches => "Touches"
  | .overlaps => "Overlaps"
  | .crosses => "Crosses"
  | .contains => "Contains"

def toJson (op : SpatialOp) : Json := .string op.tag

def ofJson? (j : Json) : Option SpatialOp := do
  let s ← j.choice?
  all.find? (·.tag = s)

end SpatialOp

namespace BinaryOp

/-- The name of an operator other than the spatial ones. -/
def tag : BinaryOp → String
  | .and => "And"
  | .or => "Or"
  | .comparison .equal => "Equal"
  | .comparison .notEqual => "NotEqual"
  | .comparison .less => "LessThan"
  | .comparison .lessOrEqual => "LessOrEqual"
  | .comparison .greater => "GreaterThan"
  | .comparison .greaterOrEqual => "GreaterOrEqual"
  | .spatial _ => "Spatial"
  | .arithmetic .add => "Add"
  | .arithmetic .subtract => "Subtract"
  | .arithmetic .multiply => "Multiply"
  | .arithmetic .divide => "Divide"

/-- The operators whose JSON form is their name alone. -/
def plain : List BinaryOp :=
  [.and, .or] ++ ComparisonOp.all.map .comparison ++ ArithmeticOp.all.map .arithmetic

def toJson : BinaryOp → Json
  | .spatial op => .tagged "Spatial" op.toJson
  | op => .string op.tag

def ofJson? : Json → Option BinaryOp
  | .object [("Spatial", op)] => (SpatialOp.ofJson? op).map .spatial
  | j => do
    let s ← j.choice?
    plain.find? (·.tag = s)

end BinaryOp

namespace UnaryOp

def toJson : UnaryOp → Json
  | .not => .string "Not"
  | .minus => .string "Minus"

def ofJson? (j : Json) : Option UnaryOp :=
  match j.choice? with
  | some "Not" => some .not
  | some "Minus" => some .minus
  | _ => none

end UnaryOp

namespace AdvancedOp

def toJson : AdvancedOp → Json
  | .like => .string "Like"
  | .between => .string "Between"
  | .isIn => .string "In"

def ofJson? (j : Json) : Option AdvancedOp :=
  match j.choice? with
  | some "Like" => some .like
  | some "Between" => some .between
  | some "In" => some .isIn
  | _ => none

end AdvancedOp

namespace FunctionName

def toJson : FunctionName → Json
  | .spatial op => .tagged "Spatial" op.toJson
  | .distanceWithin => .string "DWithin"
  | .other name => .tagged "Other" (.string name)

def ofJson? : Json → Option FunctionName
  | .object [("Spatial", op)] => (SpatialOp.ofJson? op).map .spatial
  | .object [("Other", .string name)] => some (.other name)
  | j => if j.choice? = some "DWithin" then some .distanceWithin else none

end FunctionName

namespace Literal

def toJson : Literal → Json
  | .null => .string "Null"
  | .boolean b => .tagged "Boolean" (.bool b)
  | .integer n => .tagged "Integer" (.integer n.toInt)
  | .number x => .tagged "Number" (.ofBinary64 x)
  | .string s => .tagged "String" (.string s)
  | .timestamp t => .tagged "Timestamp" (.string (toString t))
  | .date d => .tagged "Date" (.string (toString d))

def ofJson? : Json → Option Literal
  | .object [("Boolean", .bool b)] => some (.boolean b)
  | .object [("Integer", .integer n)] => (int64? n).map .integer
  | .object [("Number", j)] => j.getBinary64?.map .number
  | .object [("String", .string s)] => some (.string s)
  | .object [("Timestamp", .string s)] => (Instant.readLoose? s.toList).map .timestamp
  | .object [("Date", .string s)] => (Date.readLoose? s.toList).map .date
  | j => if j.choice? = some "Null" then some .null else none

end Literal

namespace Coordinate

def toJson (c : Coordinate) : Json :=
  .object [("x", .ofBinary64 c.x), ("y", .ofBinary64 c.y),
    ("z", .ofOption (c.z.map .ofBinary64))]

def keys : List String := ["x", "y", "z"]

/-- An object may leave out the third ordinate. -/
def ofJson? (j : Json) : Option Coordinate := do
  let x ← (← j.field? keys "x").1.getBinary64?
  let y ← (← j.field? keys "y").1.getBinary64?
  match j.field? keys "z" with
  | none => some ⟨x, y, none⟩
  | some ⟨.null, _⟩ => some ⟨x, y, none⟩
  | some ⟨z, _⟩ => do some ⟨x, y, some (← z.getBinary64?)⟩

def listOfJson? (j : Json) : Option (List Coordinate) := do (← j.getArray?).mapM ofJson?

def ringsOfJson? (j : Json) : Option (List (List Coordinate)) := do
  (← j.getArray?).mapM listOfJson?

end Coordinate

namespace Geometry

def lineJson (cs : List Coordinate) : Json := .array (cs.map Coordinate.toJson)

def ringsJson (rings : List (List Coordinate)) : Json := .array (rings.map lineJson)

mutual

def toJson : Geometry → Json
  | .point c => .tagged "Point" c.toJson
  | .lineString cs => .tagged "LineString" (lineJson cs)
  | .polygon rings => .tagged "Polygon" (ringsJson rings)
  | .multiPoint cs => .tagged "MultiPoint" (lineJson cs)
  | .multiLineString lines => .tagged "MultiLineString" (ringsJson lines)
  | .multiPolygon polygons => .tagged "MultiPolygon" (.array (polygons.map ringsJson))
  | .collection geometries => .tagged "GeometryCollection" (.array (toJsonEach geometries))

def toJsonEach : List Geometry → List Json
  | [] => []
  | g :: gs => g.toJson :: toJsonEach gs

end

mutual

def ofJson? : Json → Option Geometry
  | .object [("Point", j)] => (Coordinate.ofJson? j).map .point
  | .object [("LineString", j)] => (Coordinate.listOfJson? j).map .lineString
  | .object [("Polygon", j)] => (Coordinate.ringsOfJson? j).map .polygon
  | .object [("MultiPoint", j)] => (Coordinate.listOfJson? j).map .multiPoint
  | .object [("MultiLineString", j)] => (Coordinate.ringsOfJson? j).map .multiLineString
  | .object [("MultiPolygon", .array js)] =>
    (js.mapM Coordinate.ringsOfJson?).map .multiPolygon
  | .object [("GeometryCollection", .array js)] => (ofJsonEach? js).map .collection
  | _ => none

def ofJsonEach? : List Json → Option (List Geometry)
  | [] => some []
  | j :: js => do some ((← ofJson? j) :: (← ofJsonEach? js))

end

end Geometry

/-- The JSON form of a span. -/
def spanJson (s : Span) : Json :=
  .object [("start", .integer s.start), ("end", .integer s.stop), ("line", .integer s.line),
    ("column", .integer s.column)]

def spanKeys : List String := ["start", "end", "line", "column"]

def spanOfJson? (j : Json) : Option Span := do
  let start ← (← j.field? spanKeys "start").1.getNat?
  let stop ← (← j.field? spanKeys "end").1.getNat?
  let line ← (← j.field? spanKeys "line").1.getNat?
  let column ← (← j.field? spanKeys "column").1.getNat?
  some ⟨start, stop, line, column⟩

namespace Expr

/-- A node: what it is and where it was read. -/
def node (span : Span) (kind : Json) : Json := .object [("kind", kind), ("span", spanJson span)]

mutual

def toJson : Expr → Json
  | .binary s op left right =>
    node s (.tagged "Binary" (.object
      [("left", left.toJson), ("operator", op.toJson), ("right", right.toJson)]))
  | .call s name args =>
    node s (.tagged "Function" (.object
      [("name", name.toJson), ("arguments", .array (toJsonEach args))]))
  | .advanced s op negated args =>
    node s (.tagged "AdvancedComparison" (.object
      [("operator", op.toJson), ("arguments", .array (toJsonEach args)),
        ("negate", .bool negated)]))
  | .property s name => node s (.tagged "Property" (.string name))
  | .literal s value => node s (.tagged "Literal" value.toJson)
  | .geometry s value => node s (.tagged "Geometry" value.toJson)
  | .geometries s members =>
    node s (.tagged "GeometryCollection" (.array (members.map Geometry.toJson)))
  | .box s items => node s (.tagged "BBox" (.array (toJsonEach items)))
  | .unary s op operand =>
    node s (.tagged "Unary" (.object [("operator", op.toJson), ("operand", operand.toJson)]))
  | .group s inner => node s (.tagged "Grouping" inner.toJson)
  | .array s items => node s (.tagged "Array" (.array (toJsonEach items)))
  | .isNull s negated operand =>
    node s (.tagged "IsNull" (.object [("operand", operand.toJson), ("negate", .bool negated)]))
  | .interval s start stop =>
    node s (.tagged "Interval" (.object [("start", start.toJson), ("end", stop.toJson)]))
  | .operator s token => node s (.tagged "Operator" (.string token))

def toJsonEach : List Expr → List Json
  | [] => []
  | e :: es => e.toJson :: toJsonEach es

end

def nodeKeys : List String := ["kind", "span"]

def binaryKeys : List String := ["left", "operator", "right"]

def callKeys : List String := ["name", "arguments"]

def advancedKeys : List String := ["operator", "arguments", "negate"]

def unaryKeys : List String := ["operator", "operand"]

def isNullKeys : List String := ["operand", "negate"]

def intervalKeys : List String := ["start", "end"]

mutual

/-- Reads the JSON form of a tree. -/
def ofJson? (j : Json) : Option Expr := do
  let ⟨span, _⟩ ← j.field? nodeKeys "span"
  let ⟨kind, _⟩ ← j.field? nodeKeys "kind"
  kindOfJson? (← spanOfJson? span) kind
termination_by sizeOf j

def kindOfJson? (span : Span) (kind : Json) : Option Expr :=
  match kind with
  | .object [("Binary", body)] => do
    let ⟨left, _⟩ ← body.field? binaryKeys "left"
    let op ← BinaryOp.ofJson? (← body.field? binaryKeys "operator").1
    let ⟨right, _⟩ ← body.field? binaryKeys "right"
    some (.binary span op (← ofJson? left) (← ofJson? right))
  | .object [("Function", body)] => do
    let name ← FunctionName.ofJson? (← body.field? callKeys "name").1
    let ⟨args, _⟩ ← body.field? callKeys "arguments"
    some (.call span name (← arrayOfJson? args))
  | .object [("AdvancedComparison", body)] => do
    let op ← AdvancedOp.ofJson? (← body.field? advancedKeys "operator").1
    let ⟨args, _⟩ ← body.field? advancedKeys "arguments"
    let negated ← (← body.field? advancedKeys "negate").1.getBool?
    some (.advanced span op negated (← arrayOfJson? args))
  | .object [("Property", .string name)] => some (.property span name)
  | .object [("Literal", value)] => (Literal.ofJson? value).map (.literal span)
  | .object [("Geometry", value)] => (Geometry.ofJson? value).map (.geometry span)
  | .object [("GeometryCollection", .array js)] => (Geometry.ofJsonEach? js).map (.geometries span)
  | .object [("BBox", items)] => do some (.box span (← arrayOfJson? items))
  | .object [("Unary", body)] => do
    let op ← UnaryOp.ofJson? (← body.field? unaryKeys "operator").1
    let ⟨operand, _⟩ ← body.field? unaryKeys "operand"
    some (.unary span op (← ofJson? operand))
  | .object [("Grouping", inner)] => do some (.group span (← ofJson? inner))
  | .object [("Array", items)] => do some (.array span (← arrayOfJson? items))
  | .object [("IsNull", body)] => do
    let ⟨operand, _⟩ ← body.field? isNullKeys "operand"
    let negated ← (← body.field? isNullKeys "negate").1.getBool?
    some (.isNull span negated (← ofJson? operand))
  | .object [("Interval", body)] => do
    let ⟨start, _⟩ ← body.field? intervalKeys "start"
    let ⟨stop, _⟩ ← body.field? intervalKeys "end"
    some (.interval span (← ofJson? start) (← ofJson? stop))
  | .object [("Operator", .string token)] => some (.operator span token)
  | _ => none
termination_by sizeOf kind

def arrayOfJson? (j : Json) : Option (List Expr) :=
  match j with
  | .array js => eachOfJson? js
  | _ => none
termination_by sizeOf j

def eachOfJson? (js : List Json) : Option (List Expr) :=
  match js with
  | [] => some []
  | j :: js => do some ((← ofJson? j) :: (← eachOfJson? js))
termination_by sizeOf js

end

end Expr
end FeatureFilter
