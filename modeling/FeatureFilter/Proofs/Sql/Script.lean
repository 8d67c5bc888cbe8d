import FeatureFilter.Sql.Render

namespace FeatureFilter.Sql

/-- The fixed pieces of a predicate. -/
inductive Token where
  | lparen
  | rparen
  | comma
  | and
  | or
  | comparison (op : ComparisonOp)
  | not
  | minus
  | like (negated : Bool)
  | between (negated : Bool)
  | isIn (negated : Bool)
  | isNull (negated : Bool)
  | null
  | bool (b : Bool)
  | spatial (op : SpatialOp)
  | distanceWithin
  | geometryFromText
  | envelope
  | geography
  | srid

def Token.text : Token → String
  | .lparen => "("
  | .rparen => ")"
  | .comma => ", "
  | .and => " AND "
  | .or => " OR "
  | .comparison op => " " ++ op.name ++ " "
  | .not => "NOT "
  | .minus => "-"
  | .like negated => if negated then " NOT LIKE " else " LIKE "
  | .between negated => if negated then " NOT BETWEEN " else " BETWEEN "
  | .isIn negated => if negated then " NOT IN " else " IN "
  | .isNull negated => if negated then " IS NOT NULL" else " IS NULL"
  | .null => "NULL"
  | .bool b => if b then "TRUE" else "FALSE"
  | .spatial op => spatialFunction op
  | .distanceWithin => "ST_DWithin"
  | .geometryFromText => "ST_GeomFromText"
  | .envelope => "ST_MakeEnvelope"
  | .geography => "::geography"
  | .srid => "4326"

inductive Item where
  | token (t : Token)
  | column (name : String)
  /-- A placeholder and the value that fills it. -/
  | bind (v : Value)

/-- What has been written, and what stopped the writing. -/
structure Script where
  items : List Item
  rejection : Option Rejection

namespace Script

def write (items : List Item) : Script := ⟨items, none⟩

def tokens (ts : List Token) : Script := write (ts.map .token)

def bind (v : Value) : Script := write [.bind v]

def reject (r : Rejection) : Script := ⟨[], some r⟩

/-- One script after another. Nothing is written behind a rejection. -/
def append (a b : Script) : Script :=
  match a.rejection with
  | some _ => a
  | none => ⟨a.items ++ b.items, b.rejection⟩

instance : Append Script := ⟨append⟩

def commas : List Script → Script
  | [] => write []
  | [s] => s
  | s :: ss => s ++ tokens [.comma] ++ commas ss

def parens (s : Script) : Script := tokens [.lparen] ++ s ++ tokens [.rparen]

def call (name : Token) (args : List Script) : Script := tokens [name] ++ parens (commas args)

theorem append_of_none (h : a.rejection = none) (b : Script) :
    a ++ b = ⟨a.items ++ b.items, b.rejection⟩ := by
  change append a b = _
  rw [append, h]

theorem append_of_some (h : a.rejection = some r) (b : Script) : a ++ b = a := by
  change append a b = a
  rw [append, h]

theorem append_assoc (a b s : Script) : a ++ b ++ s = a ++ (b ++ s) := by
  cases ha : a.rejection with
  | some r => rw [append_of_some ha, append_of_some ha, append_of_some ha]
  | none =>
    cases hb : b.rejection with
    | some r =>
      have hab : (a ++ b).rejection = some r := by rw [append_of_none ha, hb]
      rw [append_of_some hab, append_of_some hb]
    | none =>
      have hab : (a ++ b).rejection = none := by rw [append_of_none ha, hb]
      rw [append_of_none hab, append_of_none ha, append_of_none ha, append_of_none hb,
        List.append_assoc]

theorem tokens_append (ts us : List Token) : tokens ts ++ tokens us = tokens (ts ++ us) := by
  rw [tokens, tokens, tokens, List.map_append]
  rfl

theorem tokens_append_append (ts us : List Token) (s : Script) :
    tokens ts ++ (tokens us ++ s) = tokens (ts ++ us) ++ s := by
  rw [← append_assoc, tokens_append]

theorem nil_append (s : Script) : write [] ++ s = s := rfl

theorem append_nil (s : Script) : s ++ write [] = s := by
  cases hs : s.rejection with
  | some r => rw [append_of_some hs]
  | none =>
    rw [append_of_none hs, write, List.append_nil, ← hs]

def behind : List Script → Script
  | [] => write []
  | s :: ss => tokens [.comma] ++ s ++ behind ss

theorem commas_cons (s : Script) (ss : List Script) : commas (s :: ss) = s ++ behind ss := by
  induction ss generalizing s with
  | nil => exact (append_nil s).symm
  | cons t ss ih =>
    have hcommas : commas (s :: t :: ss) = s ++ tokens [.comma] ++ commas (t :: ss) := rfl
    rw [hcommas, ih, behind, append_assoc, append_assoc]

end Script

def column (c : Collection) (property : String) : Script :=
  match c.resolve property with
  | .ok name => .write [.column name]
  | .error r => .reject r

def literal : Literal → Script
  | .null => .tokens [.null]
  | .boolean b => .tokens [.bool b]
  | .integer n => .bind (.bigint n)
  | .number x => .bind (.double x)
  | .string s => .bind (.text s)
  | .timestamp t => .bind (.timestamp t)
  | .date d => .bind (.date d)

/-- A geometry is bound as text; its coordinates are longitudes and latitudes. -/
def geometry (wkt : String) : Script :=
  .call .geometryFromText [.bind (.text wkt), .tokens [.srid]]

def operatorToken? : BinaryOp → Option Token
  | .and => some .and
  | .or => some .or
  | .comparison op => some (.comparison op)
  | .spatial _ => none
  | .arithmetic _ => none

/-- The function of two geometries. A property comes first, on whichever side it was written. -/
def spatial (op : SpatialOp) (left right : Expr) (leftScript rightScript : Script) : Script :=
  if !left.isProperty && right.isProperty then .call (.spatial op) [rightScript, leftScript]
  else .call (.spatial op) [leftScript, rightScript]

def function (name : FunctionName) (args : List Expr) (scripts : List Script) : Script :=
  match name with
  | .other name => .reject (.unsupportedFunction name)
  | .spatial op =>
    match args, scripts with
    | left :: right :: _, leftScript :: rightScript :: _ =>
      spatial op left right leftScript rightScript
    | _, _ => .reject (.argumentCount name.name (.atLeast 2) args.length)
  | .distanceWithin =>
    match scripts with
    | first :: second :: distance :: _ =>
      .call .distanceWithin
        [first ++ .tokens [.geography], second ++ .tokens [.geography], distance]
    | _ => .reject (.argumentCount name.name (.atLeast 3) args.length)

def advanced (op : AdvancedOp) (negated : Bool) (scripts : List Script) : Script :=
  match op, scripts with
  | .like, [subject, pattern] => .parens (subject ++ .tokens [.like negated] ++ pattern)
  | .like, _ => .reject (.argumentCount op.name (.exactly 2) scripts.length)
  | .between, [subject, low, high] =>
    .parens (subject ++ .tokens [.between negated] ++ low ++ .tokens [.and] ++ high)
  | .between, _ => .reject (.argumentCount op.name (.exactly 3) scripts.length)
  | .isIn, subject :: first :: rest =>
    .parens (subject ++ .tokens [.isIn negated] ++ .parens (.commas (first :: rest)))
  | .isIn, _ => .reject (.argumentCount op.name (.atLeast 2) scripts.length)

def box (items : List Expr) (scripts : List Script) : Script :=
  match corners scripts with
  | none => .reject (.argumentCount "bbox" .corners items.length)
  | some scripts =>
    match items.find? (!isNumeric ·) with
    | some e => .reject (.nonNumericBox (foundInBox e))
    | none => .call .envelope (scripts ++ [.tokens [.srid]])

mutual

/-- The predicate of a filter over a collection. -/
def render (c : Collection) : Expr → Script
  | .binary _ op left right =>
    match op with
    | .spatial op => spatial op left right (render c left) (render c right)
    | op =>
      match operatorToken? op with
      | some t => .parens (render c left ++ .tokens [t] ++ render c right)
      | none => .reject (.unsupportedOperator op.name)
  | .call _ name args => function name args (renderEach c args)
  | .advanced _ op negated args => advanced op negated (renderEach c args)
  | .property _ name => column c name
  | .literal _ value => literal value
  | .geometry _ value => geometry value.wkt
  | .geometries _ members => geometry (Geometry.collectionWkt members)
  | .box _ items => box items (renderEach c items)
  | .unary _ .not operand => .parens (.tokens [.not] ++ .parens (render c operand))
  | .unary _ .minus operand => .parens (.tokens [.minus] ++ render c operand)
  | .group _ inner => .parens (render c inner)
  | .array _ items =>
    if items.isEmpty then .reject .emptyArray else .parens (.commas (renderEach c items))
  | .isNull _ negated operand => .parens (render c operand ++ .tokens [.isNull negated])
  | .interval .. => .reject (.unsupportedExpression "Interval")
  | .operator _ token => .reject (.bareOperator token)

def renderEach (c : Collection) : List Expr → List Script
  | [] => []
  | e :: es => render c e :: renderEach c es

end

theorem renderEach_eq_map (c : Collection) (es : List Expr) :
    renderEach c es = es.map (render c) := by
  induction es with
  | nil => rfl
  | cons e es ih => rw [renderEach, ih, List.map_cons]

theorem corners_map (f : α → β) (l : List α) :
    corners (l.map f) = (corners l).map (List.map f) := by
  match l with
  | [] | [_] | [_, _] | [_, _, _] | [_, _, _, _] | [_, _, _, _, _] | [_, _, _, _, _, _]
  | _ :: _ :: _ :: _ :: _ :: _ :: _ :: _ => rfl

theorem corners_eq_some {l m : List α} (h : corners l = some m) :
    ∃ west south east north, m = [west, south, east, north] ∧ ∀ a ∈ m, a ∈ l := by
  unfold corners at h
  split at h
  · cases h
    exact ⟨_, _, _, _, rfl, fun _ ha => ha⟩
  · cases h
    exact ⟨_, _, _, _, rfl, by simp⟩
  · cases h

namespace Draft

def add (d : Draft) : Item → Draft
  | .token t => d.push t.text
  | .column name => d.push (d.dialect.quoteColumn name)
  | .bind v => d.bind v

/-- Writes a script; what stands before a rejection is written. -/
def write (d : Draft) (s : Script) : Option Rejection × Draft := (s.rejection, s.items.foldl add d)

theorem add_collection (d : Draft) (i : Item) : (d.add i).collection = d.collection := by
  cases i <;> rfl

theorem add_dialect (d : Draft) (i : Item) : (d.add i).dialect = d.dialect := by
  cases i <;> rfl

theorem foldl_add_collection (d : Draft) (items : List Item) :
    (items.foldl add d).collection = d.collection := by
  induction items generalizing d with
  | nil => rfl
  | cons i items ih => exact (ih (d.add i)).trans (d.add_collection i)

end Draft
end FeatureFilter.Sql
