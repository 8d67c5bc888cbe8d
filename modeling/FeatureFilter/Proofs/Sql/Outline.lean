import FeatureFilter.Proofs.Sql.Marks

namespace FeatureFilter

namespace Sql

inductive Connective where
  | and
  | or
  | comparison (op : ComparisonOp)
  | like (negated : Bool)
deriving DecidableEq

def Connective.token : Connective → Token
  | .and => .and
  | .or => .or
  | .comparison op => .comparison op
  | .like negated => .like negated

inductive Outline where
  /-- The filter is rejected here. -/
  | reject (r : Rejection)
  | null
  | bool (b : Bool)
  /-- A bound literal. -/
  | hole
  | geometry
  | column (name : String)
  | binary (op : Connective) (left right : Outline)
  | between (negated : Bool) (subject low high : Outline)
  | isIn (negated : Bool) (subject first : Outline) (rest : List Outline)
  | isNull (negated : Bool) (operand : Outline)
  | not (operand : Outline)
  | minus (operand : Outline)
  /-- A list in parentheses; with one item it is a group. -/
  | list (first : Outline) (rest : List Outline)
  | spatial (op : SpatialOp) (subject other : Outline)
  | distanceWithin (first second distance : Outline)
  | box (west south east north : Outline)

namespace Outline

@[elab_as_elim, induction_eliminator]
theorem inductionOn {motive : Outline → Prop} (o : Outline)
    (reject : ∀ r : Rejection, motive (.reject r))
    (null : motive .null)
    (bool : ∀ b : Bool, motive (.bool b))
    (hole : motive .hole)
    (geometry : motive .geometry)
    (column : ∀ name : String, motive (.column name))
    (binary : ∀ (op : Connective) (left right : Outline), motive left → motive right →
      motive (.binary op left right))
    (between : ∀ (negated : Bool) (subject low high : Outline), motive subject → motive low →
      motive high → motive (.between negated subject low high))
    (isIn : ∀ (negated : Bool) (subject first : Outline) (rest : List Outline), motive subject →
      motive first → (∀ o ∈ rest, motive o) → motive (.isIn negated subject first rest))
    (isNull : ∀ (negated : Bool) (operand : Outline), motive operand →
      motive (.isNull negated operand))
    (not : ∀ operand : Outline, motive operand → motive (.not operand))
    (minus : ∀ operand : Outline, motive operand → motive (.minus operand))
    (list : ∀ (first : Outline) (rest : List Outline), motive first → (∀ o ∈ rest, motive o) →
      motive (.list first rest))
    (spatial : ∀ (op : SpatialOp) (subject other : Outline), motive subject → motive other →
      motive (.spatial op subject other))
    (distanceWithin : ∀ first second distance : Outline, motive first → motive second →
      motive distance → motive (.distanceWithin first second distance))
    (box : ∀ west south east north : Outline, motive west → motive south → motive east →
      motive north → motive (.box west south east north)) : motive o :=
  @Outline.rec motive (fun os => ∀ o ∈ os, motive o) reject null bool hole geometry column binary
    between isIn isNull not minus list spatial distanceWithin box
    (fun _ h => absurd h List.not_mem_nil) (fun _ _ ho hos => List.forall_mem_cons.2 ⟨ho, hos⟩) o

end Outline

def parenthesized (ms : List Mark) : List Mark := .token .lparen :: ms ++ [.token .rparen]

namespace Outline

mutual

/-- The marks of a normal form; a rejection has none. -/
def marks : Outline → List Mark
  | .reject _ => []
  | .null => [.token .null]
  | .bool b => [.token (.bool b)]
  | .hole => [.hole]
  | .geometry =>
    .token .geometryFromText :: parenthesized [.hole, .token .comma, .token .srid]
  | .column name => [.column name]
  | .binary op left right => parenthesized (left.marks ++ .token op.token :: right.marks)
  | .between negated subject low high =>
    parenthesized (subject.marks ++ .token (.between negated) :: low.marks ++
      .token .and :: high.marks)
  | .isIn negated subject first rest =>
    parenthesized (subject.marks ++ .token (.isIn negated) ::
      parenthesized (first.marks ++ marksBehind rest))
  | .isNull negated operand => parenthesized (operand.marks ++ [.token (.isNull negated)])
  | .not operand => parenthesized (.token .not :: parenthesized operand.marks)
  | .minus operand => parenthesized (.token .minus :: operand.marks)
  | .list first rest => parenthesized (first.marks ++ marksBehind rest)
  | .spatial op subject other =>
    .token (.spatial op) :: parenthesized (subject.marks ++ .token .comma :: other.marks)
  | .distanceWithin first second distance =>
    .token .distanceWithin :: parenthesized (first.marks ++ [.token .geography] ++ .token .comma ::
      (second.marks ++ [.token .geography] ++ .token .comma :: distance.marks))
  | .box west south east north =>
    .token .envelope :: parenthesized (west.marks ++ .token .comma ::
      (south.marks ++ .token .comma :: (east.marks ++ .token .comma ::
        (north.marks ++ [.token .comma, .token .srid]))))

def marksBehind : List Outline → List Mark
  | [] => []
  | o :: os => .token .comma :: (o.marks ++ marksBehind os)

end

mutual

/-- The rejections in a normal form, in the order in which they are met. -/
def rejections : Outline → List Rejection
  | .reject r => [r]
  | .null | .bool _ | .hole | .geometry | .column _ => []
  | .binary _ left right => left.rejections ++ right.rejections
  | .between _ subject low high => subject.rejections ++ low.rejections ++ high.rejections
  | .isIn _ subject first rest =>
    subject.rejections ++ (first.rejections ++ rejectionsEach rest)
  | .isNull _ operand | .not operand | .minus operand => operand.rejections
  | .list first rest => first.rejections ++ rejectionsEach rest
  | .spatial _ subject other => subject.rejections ++ other.rejections
  | .distanceWithin first second distance =>
    first.rejections ++ (second.rejections ++ distance.rejections)
  | .box west south east north =>
    west.rejections ++ (south.rejections ++ (east.rejections ++ north.rejections))

def rejectionsEach : List Outline → List Rejection
  | [] => []
  | o :: os => o.rejections ++ rejectionsEach os

end

def parts : Outline → List Outline
  | .reject _ | .null | .bool _ | .hole | .geometry | .column _ => []
  | .binary _ left right => [left, right]
  | .between _ subject low high => [subject, low, high]
  | .isIn _ subject first rest => subject :: first :: rest
  | .isNull _ operand | .not operand | .minus operand => [operand]
  | .list first rest => first :: rest
  | .spatial _ subject other => [subject, other]
  | .distanceWithin first second distance => [first, second, distance]
  | .box west south east north => [west, south, east, north]

theorem rejectionsEach_eq_flatMap (os : List Outline) :
    rejectionsEach os = os.flatMap rejections := by
  induction os with
  | nil => rfl
  | cons o os ih => rw [rejectionsEach, ih, List.flatMap_cons]

theorem rejections_eq_flatMap {o : Outline} (h : ∀ r, o ≠ .reject r) :
    o.rejections = o.parts.flatMap rejections := by
  cases o with
  | reject r => exact absurd rfl (h r)
  | _ => simp [rejections, parts, rejectionsEach_eq_flatMap]

/-- A literal: null and the truth values are written, all others are bound. -/
def ofLiteral : Literal → Outline
  | .null => .null
  | .boolean b => .bool b
  | _ => .hole

/-- A spatial predicate in which a property comes first, on whichever side it was written. -/
def ofSpatial (op : SpatialOp) (left right : Expr) (leftOutline rightOutline : Outline) : Outline :=
  if !left.isProperty && right.isProperty then .spatial op rightOutline leftOutline
  else .spatial op leftOutline rightOutline

def ofCall (name : FunctionName) (args : List Expr) (outlines : List Outline) : Outline :=
  match name with
  | .other name => .reject (.unsupportedFunction name)
  | .spatial op =>
    match args, outlines with
    | left :: right :: _, leftOutline :: rightOutline :: _ =>
      ofSpatial op left right leftOutline rightOutline
    | _, _ => .reject (.argumentCount name.name (.atLeast 2) args.length)
  | .distanceWithin =>
    match outlines with
    | first :: second :: distance :: _ => .distanceWithin first second distance
    | _ => .reject (.argumentCount name.name (.atLeast 3) args.length)

def ofAdvanced (op : AdvancedOp) (negated : Bool) (outlines : List Outline) : Outline :=
  match op, outlines with
  | .like, [subject, pattern] => .binary (.like negated) subject pattern
  | .like, _ => .reject (.argumentCount op.name (.exactly 2) outlines.length)
  | .between, [subject, low, high] => .between negated subject low high
  | .between, _ => .reject (.argumentCount op.name (.exactly 3) outlines.length)
  | .isIn, subject :: first :: rest => .isIn negated subject first rest
  | .isIn, _ => .reject (.argumentCount op.name (.atLeast 2) outlines.length)

/-- A box; the heights of a box in space are left out. -/
def ofBox (items : List Expr) (outlines : List Outline) : Outline :=
  match corners outlines with
  | some [west, south, east, north] =>
    match items.find? (!isNumeric ·) with
    | some e => .reject (.nonNumericBox (foundInBox e))
    | none => .box west south east north
  | _ => .reject (.argumentCount "bbox" .corners items.length)

def ofItems : List Outline → Outline
  | [] => .reject .emptyArray
  | first :: rest => .list first rest

end Outline
end Sql

namespace Expr

open Sql (Outline)

mutual

/-- The normal form of a filter over a collection. -/
def outline (c : Collection) : Expr → Outline
  | .binary _ op left right =>
    match op with
    | .and => .binary .and (left.outline c) (right.outline c)
    | .or => .binary .or (left.outline c) (right.outline c)
    | .comparison op => .binary (.comparison op) (left.outline c) (right.outline c)
    | .spatial op => .ofSpatial op left right (left.outline c) (right.outline c)
    | .arithmetic op => .reject (.unsupportedOperator op.name)
  | .call _ name args => .ofCall name args (outlineEach c args)
  | .advanced _ op negated args => .ofAdvanced op negated (outlineEach c args)
  | .property _ name =>
    match c.resolve name with
    | .ok column => .column column
    | .error r => .reject r
  | .literal _ value => .ofLiteral value
  | .geometry .. | .geometries .. => .geometry
  | .box _ items => .ofBox items (outlineEach c items)
  | .unary _ .not operand => .not (operand.outline c)
  | .unary _ .minus operand => .minus (operand.outline c)
  | .group _ inner => .list (inner.outline c) []
  | .array _ items => .ofItems (outlineEach c items)
  | .isNull _ negated operand => .isNull negated (operand.outline c)
  | .interval .. => .reject (.unsupportedExpression "Interval")
  | .operator _ token => .reject (.bareOperator token)

def outlineEach (c : Collection) : List Expr → List Outline
  | [] => []
  | e :: es => e.outline c :: outlineEach c es

end

theorem outlineEach_eq_map (c : Collection) (es : List Expr) :
    outlineEach c es = es.map (outline c) := by
  induction es with
  | nil => rfl
  | cons e es ih => simp only [outlineEach, ih, List.map_cons]

end Expr
end FeatureFilter
