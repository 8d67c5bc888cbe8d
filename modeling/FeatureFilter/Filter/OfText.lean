import FeatureFilter.Filter.Expr
import FeatureFilter.Filter.ReadError
import FeatureFilter.Grammar.Cql2

namespace FeatureFilter

open Grammar (Rule ParseTree cql2)
open Number (Binary64)
open Text (Span)
open Time (Date Instant)

namespace OfText

abbrev Result (α : Type) := Except ReadError α

/-- A defect of what stands at a span. -/
def fail {α : Type} (span : Span) (d : Defect) : Result α := .error ⟨d, span.line, span.column⟩

/-- What there is, or a defect. -/
def orFail {α : Type} (span : Span) (d : Defect) : Option α → Result α
  | some a => .ok a
  | none => fail span d

/-- The text of a string literal. -/
def stringValue (lexeme : List Char) : String := .ofList (Text.unquote '\'' lexeme)

/-- The number that a numeral stands for. -/
def numeral (span : Span) (lexeme : List Char) : Result Literal :=
  orFail span (.invalidNumber (.ofList lexeme)) (Literal.ofNumeral? lexeme)

/-- An ordinate of the coordinate at a span. -/
def ordinate (span : Span) : ParseTree Rule → Result Binary64
  | .token _ _ lexeme => do
    orFail span .invalidCoordinate (← numeral span lexeme).toBinary64?
  | .node rule _ _ => fail span (.misplaced "ordinate" rule)

def coordinate : ParseTree Rule → Result Coordinate
  | .node .coordinate span children => do
    let ordinates ← children.mapM (ordinate span)
    orFail span (.ordinateCount ordinates.length) (Coordinate.ofOrdinates? ordinates)
  | .node _ span _ => fail span (.lacking .coordinate)
  | .token _ span _ => fail span (.lacking .coordinate)

def coordinateList : ParseTree Rule → Result (List Coordinate)
  | .node .coordinateList _ children => children.mapM coordinate
  | .node _ span _ => fail span (.lacking .coordinateList)
  | .token _ span _ => fail span (.lacking .coordinateList)

def ringList : ParseTree Rule → Result (List (List Coordinate))
  | .node .ringList _ children => children.mapM coordinateList
  | .node _ span _ => fail span (.lacking .ringList)
  | .token _ span _ => fail span (.lacking .ringList)

def polygonList : ParseTree Rule → Result (List (List (List Coordinate)))
  | .node .polygonList _ children => children.mapM ringList
  | .node _ span _ => fail span (.lacking .polygonList)
  | .token _ span _ => fail span (.lacking .polygonList)

/-- The parts of a geometry without its keyword and the mark of a third ordinate. -/
def content : List (ParseTree Rule) → List (ParseTree Rule)
  | .token _ _ _ :: ts => content ts
  | ts => ts

/-- The part of a geometry, which is of some rule. -/
def soleContent (rule : Rule) (span : Span) (children : List (ParseTree Rule)) :
    Result (ParseTree Rule) :=
  orFail span (.lacking rule) (content children).head?

mutual

/-- The geometry of a literal or of the text that it consists of. -/
def geometry : ParseTree Rule → Result Geometry
  | .token _ span _ => fail span (.missing "geometry")
  | .node rule span children =>
    match rule with
    | .geometryLiteral =>
      match children with
      | t :: _ => geometry t
      | [] => fail span (.missing "geometry")
    | .pointText => do return .point (← coordinate (← soleContent .coordinate span children))
    | .lineStringText => do
      return .lineString (← coordinateList (← soleContent .coordinateList span children))
    | .polygonText => do return .polygon (← ringList (← soleContent .ringList span children))
    | .multiPointText => do return .multiPoint (← (content children).mapM coordinate)
    | .multiLineStringText => do
      return .multiLineString (← ringList (← soleContent .ringList span children))
    | .multiPolygonText => do
      return .multiPolygon (← polygonList (← soleContent .polygonList span children))
    | .geometryCollectionText =>
      match children with
      | _ :: members => do return .collection (← geometryEach members)
      | [] => .ok (.collection [])
    | _ => fail span (.misplaced "geometry" rule)

def geometryEach : List (ParseTree Rule) → Result (List Geometry)
  | [] => .ok []
  | t :: ts => do return (← geometry t) :: (← geometryEach ts)

end

/-- The literal of a token. -/
def tokenExpr (rule : Rule) (span : Span) (lexeme : List Char) : Result Expr :=
  match rule with
  | .numberLiteral | .signedNumber => do return .literal span (← numeral span lexeme)
  | .stringLiteral => .ok (.literal span (.string (stringValue lexeme)))
  | _ => fail span (.misplaced "primary expression" rule)

/-- The string literal in the parentheses behind a keyword. -/
def soleString (span : Span) : List (ParseTree Rule) → Result String
  | [_, .token .stringLiteral _ lexeme] => .ok (stringValue lexeme)
  | _ => fail span (.lacking .stringLiteral)

def timestamp (span : Span) (text : String) : Result Expr :=
  match Instant.ofString? text with
  | some t => .ok (.literal span (.timestamp t))
  | none => fail span (.invalidTimestamp text)

def date (span : Span) (text : String) : Result Expr :=
  match Date.ofString? text with
  | some d => .ok (.literal span (.date d))
  | none => fail span (.invalidDate text)

def propertyExpr (span : Span) : List (ParseTree Rule) → Result Expr
  | [.token .quotedIdentifier _ lexeme] => .ok (.property span (.ofList (Text.between lexeme)))
  | [.token .identifier _ lexeme] => .ok (.property span (.ofList lexeme))
  | _ => fail span (.missing "property name")

/-- The operator that a token spells, for what stands at a span. -/
def operator (span : Span) : ParseTree Rule → Result BinaryOp
  | .token _ _ lexeme =>
    orFail span (.unknownOperator (.ofList lexeme)) (BinaryOp.ofToken? (.ofList lexeme))
  | .node rule _ _ => fail span (.unknownOperator rule.name)

def advancedOp : Rule → AdvancedOp
  | .likeTail => .like
  | .betweenTail => .between
  | _ => .isIn

/-- The first operand of a rule for operands with operators between them, in messages. -/
def firstOperand : Rule → String
  | .disjunction => "or operand"
  | .conjunction => "and operand"
  | _ => "operand"

def isToken (rule : Rule) : ParseTree Rule → Bool
  | .token r _ _ => r == rule
  | .node .. => false

mutual

/-- The filter that the tree of a rule stands for. -/
def expr : ParseTree Rule → Result Expr
  | .token rule span lexeme => tokenExpr rule span lexeme
  | .node rule span children =>
    match rule with
    | .expression => sole span children
    | .disjunction => chain rule span children
    | .conjunction => chain rule span children
    | .additive => chain rule span children
    | .multiplicative => chain rule span children
    | .negation => signed .kwNot .not "predicate" "NOT operand" span children
    | .unary => signed .minus .minus "operand" "negated operand" span children
    | .predicate =>
      match children with
      | [] => fail span (.missing "operand")
      | [t] => expr t
      | t :: tail :: _ => do predicate span (← expr t) tail
    | .booleanLiteral => .ok (.literal span (.boolean (children.any (isToken .kwTrue))))
    | .nullLiteral => .ok (.literal span .null)
    | .timestampLiteral => do timestamp span (← soleString span children)
    | .dateLiteral => do date span (← soleString span children)
    | .interval =>
      match children with
      | _ :: start :: stop :: _ => do return .interval span (← expr start) (← expr stop)
      | [_, _] => fail span (.missing "interval end")
      | _ => fail span (.missing "interval start")
    | .bbox =>
      match children with
      | _ :: items => do return .box span (← each items)
      | [] => .ok (.box span [])
    | .geometryLiteral => do return .ofGeometry span (← geometry (.node rule span children))
    | .functionCall =>
      match children with
      | .token .functionName _ lexeme :: args => do
        return .call span (.ofString (.ofList lexeme)) (← each args)
      | args => do return .call span (.other "") (← each args)
    | .parenthesized => do
      match ← each children with
      | [e] => return .group span e
      | es => return .array span es
    | .property => propertyExpr span children
    | _ => fail span (.misplaced "primary expression" rule)

/-- A rule that stands for its only part. -/
def sole (span : Span) : List (ParseTree Rule) → Result Expr
  | t :: _ => expr t
  | [] => fail span (.missing "expression")

/-- A rule that stands for its only part, or for an operator in front of it. -/
def signed (mark : Rule) (op : UnaryOp) (part operand : String) (span : Span) :
    List (ParseTree Rule) → Result Expr
  | [] => fail span (.missing part)
  | [t] => if isToken mark t then fail span (.missing operand) else expr t
  | t :: t' :: _ => if isToken mark t then do return .unary span op (← expr t') else expr t

/-- Operands with operators between them, taken from the left. -/
def chain (rule : Rule) (span : Span) : List (ParseTree Rule) → Result Expr
  | t :: ts => do chainFrom span (← expr t) ts
  | [] => fail span (.missing (firstOperand rule))

def chainFrom (span : Span) (left : Expr) : List (ParseTree Rule) → Result Expr
  | [] => .ok left
  | op :: t :: ts => do chainFrom span (.binary span (← operator span op) left (← expr t)) ts
  | [_] => fail span (.missing "right operand")

/-- A subject with the operator and the operand behind it. -/
def related (span tailSpan : Span) (subject : Expr) : List (ParseTree Rule) → Result Expr
  | op :: t :: _ => do return .binary span (← operator tailSpan op) subject (← expr t)
  | [_] => fail tailSpan (.missing "right operand")
  | [] => fail tailSpan (.missing "operator")

/-- A subject with what follows it. -/
def predicate (span : Span) (subject : Expr) : ParseTree Rule → Result Expr
  | .token rule tailSpan _ => fail tailSpan (.misplaced "predicate" rule)
  | .node rule tailSpan children =>
    match rule with
    | .comparisonTail => related span tailSpan subject children
    | .spatialTail => related span tailSpan subject children
    | .likeTail | .betweenTail | .inTail => do
      return .advanced span (advancedOp rule) (children.any (isToken .kwNot))
        (subject :: (← operands children))
    | .isNullTail => .ok (.isNull span (children.any (isToken .kwNot)) subject)
    | _ => fail tailSpan (.misplaced "predicate" rule)

/-- The operands among the parts of a rule, without the keywords. -/
def operands : List (ParseTree Rule) → Result (List Expr)
  | [] => .ok []
  | .token _ _ _ :: ts => operands ts
  | .node rule span children :: ts => do
    return (← expr (.node rule span children)) :: (← operands ts)

def each : List (ParseTree Rule) → Result (List Expr)
  | [] => .ok []
  | t :: ts => do return (← expr t) :: (← each ts)

end

/-- The filter of a whole text. -/
def filter : List (ParseTree Rule) → Result Expr
  | .node _ _ (t :: _) :: _ => expr t
  | .node _ span [] :: _ => fail span (.empty "filter")
  | .token _ span _ :: _ => fail span (.empty "filter")
  | [] => .error ⟨.empty "input", 1, 1⟩

end OfText

/-- Reads a filter from text. -/
def Expr.ofText (text : String) : Except ReadError Expr :=
  match cql2.parse .filter text.toList with
  | ⟨_, some (_, trees)⟩ => OfText.filter trees
  | ⟨a, none⟩ =>
    .error ⟨.unexpected (Rule.ordered a.rules), a.position.line, a.position.column⟩

end FeatureFilter
