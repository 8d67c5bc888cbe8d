import FeatureFilter.Filter.Expr
import FeatureFilter.Filter.ReadError
import FeatureFilter.Json.Reader

namespace FeatureFilter

open Number (Binary64)
open Text (Span)
open Time (Date Instant)

namespace OfJson

abbrev Result (α : Type) := Except ReadError α

def fail {α : Type} (d : Defect) : Result α := .error (.unplaced d)

def expectString (what : String) : Json → Result String
  | .string s => .ok s
  | j => fail (.notString what j)

def expectArray (what : String) : Json → Result (List Json)
  | .array items => .ok items
  | j => fail (.notArray what j)

def ordinate (j : Json) : Result Binary64 :=
  match j.getBinary64? with
  | some x => .ok x
  | none => fail (.notOrdinate j)

def coordinate (j : Json) : Result Coordinate := do
  let ordinates ← (← expectArray "coordinates" j).mapM ordinate
  match Coordinate.ofOrdinates? ordinates with
  | some c => .ok c
  | none => fail (.ordinateCount ordinates.length)

def coordinateList (j : Json) : Result (List Coordinate) := do
  (← expectArray "coordinates" j).mapM coordinate

def ringList (j : Json) : Result (List (List Coordinate)) := do
  (← expectArray "coordinates" j).mapM coordinateList

def polygonList (j : Json) : Result (List (List (List Coordinate))) := do
  (← expectArray "coordinates" j).mapM ringList

/-- The type of a GeoJSON object; one without a type has an empty one. -/
def geometryKind (members : List (String × Json)) : Result String :=
  match Entries.get? "type" members with
  | some j => expectString "type" j
  | none => .ok ""

/-- A geometry of a kind that has coordinates. -/
def simpleGeometry (kind : String) (coordinates : Json) : Result Geometry :=
  match kind with
  | "Point" => .point <$> coordinate coordinates
  | "LineString" => .lineString <$> coordinateList coordinates
  | "Polygon" => .polygon <$> ringList coordinates
  | "MultiPoint" => .multiPoint <$> coordinateList coordinates
  | "MultiLineString" => .multiLineString <$> ringList coordinates
  | "MultiPolygon" => .multiPolygon <$> polygonList coordinates
  | kind => fail (.unknownGeometry kind)

mutual

/-- A GeoJSON object. -/
def geometry (members : List (String × Json)) : Result Geometry := do
  let kind ← geometryKind members
  if kind = "GeometryCollection" then
    match Json.member? "geometries" members with
    | none => fail .noGeometries
    | some ⟨j, _⟩ => .collection <$> geometryList j
  else
    match Entries.get? "coordinates" members with
    | none => fail (.noCoordinates kind)
    | some coordinates => simpleGeometry kind coordinates
termination_by sizeOf members

def geometryList (j : Json) : Result (List Geometry) :=
  match j with
  | .array items => geometryEach items
  | j => fail (.notArray "geometries" j)
termination_by sizeOf j

def geometryEach (items : List Json) : Result (List Geometry) :=
  match items with
  | [] => .ok []
  | .object members :: rest => do return (← geometry members) :: (← geometryEach rest)
  | j :: _ => fail (.notGeometry j)
termination_by sizeOf items

end

def timestamp (text : String) : Result Expr :=
  match Instant.ofString? text with
  | some t => .ok (.literal .zero (.timestamp t))
  | none => fail (.invalidTimestamp text)

def date (text : String) : Result Expr :=
  match Date.ofString? text with
  | some d => .ok (.literal .zero (.date d))
  | none => fail (.invalidDate text)

/-- A string as the bound of an interval: an instant or a date if it reads as one. -/
def boundLiteral (text : String) : Literal :=
  match Instant.ofString? text with
  | some t => .timestamp t
  | none =>
    match Date.ofString? text with
    | some d => .date d
    | none => .string text

/-- An integer that does not fit 64 bits is a double. -/
def integerLiteral (n : Int) : Literal :=
  match int64? n with
  | some n => .integer n
  | none => .number (.ofInt n)

/-- An operation of two operands or more, taken from the left. -/
def logical (op : BinaryOp) (args : List Expr) : Result Expr :=
  match args with
  | first :: second :: rest =>
    .ok (rest.foldl (.binary .zero op) (.binary .zero op first second))
  | _ => fail (.fewerThanTwoArguments op.name args.length)

def onlyArgument (op : String) : List Expr → Result Expr
  | [e] => .ok e
  | args => fail (.notOneArgument op args.length)

/-- A value and one array list the candidates in the array. -/
def candidates : List Expr → List Expr
  | [e, .array _ items] => e :: items
  | args => args

/-- The operators between exactly two operands. -/
def plainOperators : List BinaryOp :=
  ComparisonOp.all.map .comparison ++ ArithmeticOp.all.map .arithmetic

/-- The operation that a word in small letters stands for. -/
def operation (op : String) (args : List Expr) : Result Expr :=
  match op with
  | "and" => logical .and args
  | "or" => logical .or args
  | "not" => do return .unary .zero .not (← onlyArgument op args)
  | "isnull" => do return .isNull .zero false (← onlyArgument op args)
  | "like" => .ok (.advanced .zero .like false args)
  | "between" => .ok (.advanced .zero .between false args)
  | "in" => .ok (.advanced .zero .isIn false (candidates args))
  | op =>
    match plainOperators.find? (·.name = op) with
    | some binary =>
      match args with
      | [left, right] => .ok (.binary .zero binary left right)
      | _ => fail (.notTwoArguments op args.length)
    | none => .ok (.call .zero (.ofString op) args)

mutual

/-- The filter that a JSON value stands for. -/
def expr (j : Json) : Result Expr :=
  match j with
  | .null => .ok (.literal .zero .null)
  | .bool b => .ok (.literal .zero (.boolean b))
  | .integer n => .ok (.literal .zero (integerLiteral n))
  | .float x => .ok (.literal .zero (.number x))
  | .string s => .ok (.literal .zero (.string s))
  | .array items => do return .array .zero (← each items)
  | .object members => object members
termination_by sizeOf j

/-- The first of these members that an object has decides what it is. -/
def object (members : List (String × Json)) : Result Expr :=
  match Entries.get? "op" members with
  | some op => do
    let op ← expectString "op" op
    match Json.member? "args" members with
    | none => .ok (.operator .zero op)
    | some ⟨args, _⟩ => do operation (Text.lower op) (← list "args" args)
  | none =>
  match Entries.get? "property" members with
  | some name => do return .property .zero (← expectString "property" name)
  | none =>
  match Entries.get? "timestamp" members with
  | some text => do timestamp (← expectString "timestamp" text)
  | none =>
  match Entries.get? "date" members with
  | some text => do date (← expectString "date" text)
  | none =>
  match Json.member? "interval" members with
  | some ⟨bounds, _⟩ => interval bounds
  | none =>
  match Json.member? "bbox" members with
  | some ⟨items, _⟩ => do return .box .zero (← list "bbox" items)
  | none =>
  match Entries.get? "type" members with
  | some _ => do return .ofGeometry .zero (← geometry members)
  | none => fail (.unknownObject (members.map (·.1)))
termination_by sizeOf members

def interval (bounds : Json) : Result Expr :=
  match bounds with
  | .array [start, stop] => do return .interval .zero (← bound start) (← bound stop)
  | .array items => fail (.intervalBounds items.length)
  | j => fail (.notArray "interval" j)
termination_by sizeOf bounds

def bound (j : Json) : Result Expr :=
  match j with
  | .string text => .ok (.literal .zero (boundLiteral text))
  | j => expr j
termination_by sizeOf j + 1

def list (what : String) (j : Json) : Result (List Expr) :=
  match j with
  | .array items => each items
  | j => fail (.notArray what j)
termination_by sizeOf j

def each (items : List Json) : Result (List Expr) :=
  match items with
  | [] => .ok []
  | j :: js => do return (← expr j) :: (← each js)
termination_by sizeOf items

end

end OfJson

/-- The filter that a JSON value stands for. -/
def Expr.ofJsonFilter (j : Json) : Except ReadError Expr := OfJson.expr j

/-- Reads a filter from a JSON text. -/
def Expr.ofJsonText (text : String) : Except ReadError Expr :=
  match Json.parse text with
  | .ok j => Expr.ofJsonFilter j
  | .error e => .error ⟨.invalidJson e, e.line, e.column⟩

end FeatureFilter
