import FeatureFilter.Grammar.Phrase
import FeatureFilter.Grammar.Rule

namespace FeatureFilter.Grammar

namespace Pattern

def str (s : String) : Pattern := .text s.toList

def identStart : Pattern := anyOf [.one .letter, str "_"]

def identChar : Pattern := anyOf [.one .letter, .one .digit, str "_", str ".", str ":"]

/-- A word that no character of a name follows. -/
def keyword (w : String) : Pattern := .seq (.anyCase w.toList) (.unless identChar)

/-- The words that are no names. -/
def reservedWords : List String :=
  ["and", "or", "not", "like", "between", "in", "is", "null", "true", "false"]

def identifier : Pattern :=
  .seq (.unless (anyOf (reservedWords.map keyword))) (.seq identStart (.many identChar))

/-- Any character but one. -/
def except (s : String) : Pattern := .seq (.unless (str s)) (.one .any)

def quotedIdentifier : Pattern := .seq (str "\"") (.seq (atLeastOne (except "\"")) (str "\""))

def digits : Pattern := atLeastOne (.one .digit)

def sign : Pattern := anyOf [str "+", str "-"]

def number : Pattern :=
  .seq
    (anyOf
      [.seq digits (.optional (.seq (str ".") (.many (.one .digit)))), .seq (str ".") digits])
    (.optional (.seq (.anyCase ['e']) (.seq (.optional sign) digits)))

def string : Pattern :=
  .seq (str "'") (.seq (.many (anyOf [str "''", except "'"])) (str "'"))

def spatialWords : List String :=
  ["s_intersects", "s_within", "s_disjoint", "s_equals", "s_touches", "s_overlaps", "s_crosses",
    "s_contains"]

end Pattern

namespace Phrase

def inOrder : List (Phrase Rule) → Phrase Rule
  | [] => .nothing
  | [e] => e
  | e :: es => .seq e (inOrder es)

def anyOf : List (Phrase Rule) → Phrase Rule
  | [] => .nothing
  | [e] => e
  | e :: es => .choice e (anyOf es)

def str (s : String) : Phrase Rule := .mark s.toList

/-- Items with a separator between them, at least one. -/
def separated (separator item : Phrase Rule) : Phrase Rule :=
  .seq item (.many (.seq separator item))

/-- Items with commas between them. -/
def commas (item : Phrase Rule) : Phrase Rule := separated (str ",") item

def parens (e : Phrase Rule) : Phrase Rule := inOrder [str "(", e, str ")"]

/-- A list in parentheses. -/
def tuple (item : Phrase Rule) : Phrase Rule := parens (commas item)

def operand : Phrase Rule := .rule .additive

def predicateTail : Phrase Rule :=
  anyOf [.rule .comparisonTail, .rule .spatialTail, .rule .likeTail, .rule .betweenTail,
    .rule .inTail, .rule .isNullTail]

def primary : Phrase Rule :=
  anyOf [.rule .geometryLiteral, .rule .bbox, .rule .interval, .rule .timestampLiteral,
    .rule .dateLiteral, .rule .booleanLiteral, .rule .nullLiteral, .rule .functionCall,
    .rule .numberLiteral, .rule .stringLiteral, .rule .parenthesized, .rule .property]

/-- Expressions in parentheses, or none. -/
def arguments : Phrase Rule := parens (.optional (commas (.rule .expression)))

def intervalBound : Phrase Rule :=
  anyOf [.rule .timestampLiteral, .rule .dateLiteral, .rule .stringLiteral, .rule .property]

def multiPointMember : Phrase Rule := anyOf [parens (.rule .coordinate), .rule .coordinate]

/-- The keyword of a geometry, the mark of a third ordinate, and the geometry's content. -/
def geometryText (kw : Rule) (content : Phrase Rule) : Phrase Rule :=
  inOrder [.rule kw, .optional (.rule .kwZ), content]

end Phrase

open Phrase in
/-- The definitions of the rules. -/
def Rule.definition : Rule → Definition Rule
  | .endOfText => .phrase .endOfText
  | .filter => .phrase (inOrder [.nothing, .rule .expression, .rule .endOfText])
  | .expression => .phrase (.rule .disjunction)
  | .disjunction => .phrase (separated (.rule .kwOr) (.rule .conjunction))
  | .conjunction => .phrase (separated (.rule .kwAnd) (.rule .negation))
  | .negation => .phrase (anyOf [inOrder [.rule .kwNot, .rule .negation], .rule .predicate])
  | .predicate => .phrase (inOrder [operand, .optional predicateTail])
  | .comparisonTail => .phrase (inOrder [.rule .comparisonOp, operand])
  | .spatialTail => .phrase (inOrder [.rule .spatialOp, operand])
  | .likeTail => .phrase (inOrder [.optional (.rule .kwNot), .rule .kwLike, operand])
  | .betweenTail =>
    .phrase (inOrder
      [.optional (.rule .kwNot), .rule .kwBetween, operand, .rule .kwAnd, operand])
  | .inTail => .phrase (inOrder [.optional (.rule .kwNot), .rule .kwIn, tuple operand])
  | .isNullTail => .phrase (inOrder [.rule .kwIs, .optional (.rule .kwNot), .rule .kwNull])
  | .additive => .phrase (separated (.rule .addOp) (.rule .multiplicative))
  | .multiplicative => .phrase (separated (.rule .mulOp) (.rule .unary))
  | .unary => .phrase (anyOf [inOrder [.rule .minus, .rule .unary], primary])
  | .functionCall => .phrase (inOrder [.rule .functionName, arguments])
  | .functionName => .token Pattern.identifier
  | .parenthesized => .phrase arguments
  | .property => .phrase (anyOf [.rule .quotedIdentifier, .rule .identifier])
  | .identifier => .token Pattern.identifier
  | .quotedIdentifier => .token Pattern.quotedIdentifier
  | .booleanLiteral => .phrase (anyOf [.rule .kwTrue, .rule .kwFalse])
  | .nullLiteral => .phrase (.rule .kwNull)
  | .numberLiteral => .token Pattern.number
  | .signedNumber => .token (.seq (.optional Pattern.sign) Pattern.number)
  | .stringLiteral => .token Pattern.string
  | .timestampLiteral => .phrase (inOrder [.rule .kwTimestamp, parens (.rule .stringLiteral)])
  | .dateLiteral => .phrase (inOrder [.rule .kwDate, parens (.rule .stringLiteral)])
  | .interval =>
    .phrase (inOrder [.rule .kwInterval, parens (inOrder [intervalBound, str ",", intervalBound])])
  | .bbox => .phrase (inOrder [.rule .kwBbox, tuple (.rule .signedNumber)])
  | .geometryLiteral =>
    .phrase (anyOf [.rule .pointText, .rule .lineStringText, .rule .polygonText,
      .rule .multiPointText, .rule .multiLineStringText, .rule .multiPolygonText,
      .rule .geometryCollectionText])
  | .coordinate =>
    .phrase (inOrder [.rule .signedNumber, .rule .signedNumber, .optional (.rule .signedNumber)])
  | .coordinateList => .phrase (tuple (.rule .coordinate))
  | .ringList => .phrase (tuple (.rule .coordinateList))
  | .polygonList => .phrase (tuple (.rule .ringList))
  | .pointText => .phrase (geometryText .kwPoint (parens (.rule .coordinate)))
  | .lineStringText => .phrase (geometryText .kwLineString (.rule .coordinateList))
  | .polygonText => .phrase (geometryText .kwPolygon (.rule .ringList))
  | .multiPointText => .phrase (geometryText .kwMultiPoint (tuple multiPointMember))
  | .multiLineStringText => .phrase (geometryText .kwMultiLineString (.rule .ringList))
  | .multiPolygonText => .phrase (geometryText .kwMultiPolygon (.rule .polygonList))
  | .geometryCollectionText =>
    .phrase (inOrder [.rule .kwGeometryCollection, tuple (.rule .geometryLiteral)])
  | .comparisonOp =>
    .token (Pattern.anyOf (["<>", "<=", ">=", "<", ">", "="].map Pattern.str))
  | .addOp => .token Pattern.sign
  | .mulOp => .token (Pattern.anyOf [Pattern.str "*", Pattern.str "/"])
  | .minus => .token (Pattern.str "-")
  | .spatialOp =>
    .token (.seq (Pattern.anyOf (Pattern.spatialWords.map fun w => .anyCase w.toList))
      (.unless Pattern.identChar))
  | .kwAnd => .token (Pattern.keyword "and")
  | .kwOr => .token (Pattern.keyword "or")
  | .kwNot => .token (Pattern.keyword "not")
  | .kwLike => .token (Pattern.keyword "like")
  | .kwBetween => .token (Pattern.keyword "between")
  | .kwIn => .token (Pattern.keyword "in")
  | .kwIs => .token (Pattern.keyword "is")
  | .kwNull => .token (Pattern.keyword "null")
  | .kwTrue => .token (Pattern.keyword "true")
  | .kwFalse => .token (Pattern.keyword "false")
  | .kwBbox => .token (Pattern.keyword "bbox")
  | .kwInterval => .token (Pattern.keyword "interval")
  | .kwTimestamp => .token (Pattern.keyword "timestamp")
  | .kwDate => .token (Pattern.keyword "date")
  | .kwPoint => .token (Pattern.keyword "point")
  | .kwLineString => .token (Pattern.keyword "linestring")
  | .kwPolygon => .token (Pattern.keyword "polygon")
  | .kwMultiPoint => .token (Pattern.keyword "multipoint")
  | .kwMultiLineString => .token (Pattern.keyword "multilinestring")
  | .kwMultiPolygon => .token (Pattern.keyword "multipolygon")
  | .kwGeometryCollection => .token (Pattern.keyword "geometrycollection")
  | .kwZ => .token (Pattern.keyword "z")

/-- The grammar of filter texts. -/
def cql2 : RuleSet Rule := ⟨Rule.definition, Rule.all.length⟩

end FeatureFilter.Grammar
