namespace FeatureFilter.Grammar

inductive Rule where
  | endOfText
  | filter
  | expression
  | disjunction
  | conjunction
  | negation
  | predicate
  | comparisonTail
  | spatialTail
  | likeTail
  | betweenTail
  | inTail
  | isNullTail
  | additive
  | multiplicative
  | unary
  | functionCall
  | functionName
  | parenthesized
  | property
  | identifier
  | quotedIdentifier
  | booleanLiteral
  | nullLiteral
  | numberLiteral
  | signedNumber
  | stringLiteral
  | timestampLiteral
  | dateLiteral
  | interval
  | bbox
  | geometryLiteral
  | coordinate
  | coordinateList
  | ringList
  | polygonList
  | pointText
  | lineStringText
  | polygonText
  | multiPointText
  | multiLineStringText
  | multiPolygonText
  | geometryCollectionText
  | comparisonOp
  | addOp
  | mulOp
  | minus
  | spatialOp
  | kwAnd
  | kwOr
  | kwNot
  | kwLike
  | kwBetween
  | kwIn
  | kwIs
  | kwNull
  | kwTrue
  | kwFalse
  | kwBbox
  | kwInterval
  | kwTimestamp
  | kwDate
  | kwPoint
  | kwLineString
  | kwPolygon
  | kwMultiPoint
  | kwMultiLineString
  | kwMultiPolygon
  | kwGeometryCollection
  | kwZ
deriving DecidableEq, Repr

namespace Rule

/-- Every rule once, in order. -/
def all : List Rule :=
  [.endOfText, .filter, .expression, .disjunction, .conjunction, .negation, .predicate,
    .comparisonTail, .spatialTail, .likeTail, .betweenTail, .inTail, .isNullTail, .additive,
    .multiplicative, .unary, .functionCall, .functionName, .parenthesized, .property,
    .identifier, .quotedIdentifier, .booleanLiteral, .nullLiteral, .numberLiteral,
    .signedNumber, .stringLiteral, .timestampLiteral, .dateLiteral, .interval, .bbox,
    .geometryLiteral, .coordinate, .coordinateList, .ringList, .polygonList, .pointText,
    .lineStringText, .polygonText, .multiPointText, .multiLineStringText, .multiPolygonText,
    .geometryCollectionText, .comparisonOp, .addOp, .mulOp, .minus, .spatialOp, .kwAnd, .kwOr,
    .kwNot, .kwLike, .kwBetween, .kwIn, .kwIs, .kwNull, .kwTrue, .kwFalse, .kwBbox,
    .kwInterval, .kwTimestamp, .kwDate, .kwPoint, .kwLineString, .kwPolygon, .kwMultiPoint,
    .kwMultiLineString, .kwMultiPolygon, .kwGeometryCollection, .kwZ]

/-- The name of a rule in messages. -/
def name : Rule → String
  | .endOfText => "EOI"
  | .filter => "filter"
  | .expression => "expression"
  | .disjunction => "disjunction"
  | .conjunction => "conjunction"
  | .negation => "negation"
  | .predicate => "predicate"
  | .comparisonTail => "comparison_tail"
  | .spatialTail => "spatial_tail"
  | .likeTail => "like_tail"
  | .betweenTail => "between_tail"
  | .inTail => "in_tail"
  | .isNullTail => "is_null_tail"
  | .additive => "additive"
  | .multiplicative => "multiplicative"
  | .unary => "unary"
  | .functionCall => "function_call"
  | .functionName => "function_name"
  | .parenthesized => "parenthesized"
  | .property => "property"
  | .identifier => "identifier"
  | .quotedIdentifier => "quoted_identifier"
  | .booleanLiteral => "boolean_literal"
  | .nullLiteral => "null_literal"
  | .numberLiteral => "number_literal"
  | .signedNumber => "signed_number"
  | .stringLiteral => "string_literal"
  | .timestampLiteral => "timestamp_literal"
  | .dateLiteral => "date_literal"
  | .interval => "interval"
  | .bbox => "bbox"
  | .geometryLiteral => "geometry_literal"
  | .coordinate => "coordinate"
  | .coordinateList => "coordinate_list"
  | .ringList => "ring_list"
  | .polygonList => "polygon_list"
  | .pointText => "point_text"
  | .lineStringText => "linestring_text"
  | .polygonText => "polygon_text"
  | .multiPointText => "multipoint_text"
  | .multiLineStringText => "multilinestring_text"
  | .multiPolygonText => "multipolygon_text"
  | .geometryCollectionText => "geometrycollection_text"
  | .comparisonOp => "comparison_op"
  | .addOp => "add_op"
  | .mulOp => "mul_op"
  | .minus => "minus"
  | .spatialOp => "spatial_op"
  | .kwAnd => "kw_and"
  | .kwOr => "kw_or"
  | .kwNot => "kw_not"
  | .kwLike => "kw_like"
  | .kwBetween => "kw_between"
  | .kwIn => "kw_in"
  | .kwIs => "kw_is"
  | .kwNull => "kw_null"
  | .kwTrue => "kw_true"
  | .kwFalse => "kw_false"
  | .kwBbox => "kw_bbox"
  | .kwInterval => "kw_interval"
  | .kwTimestamp => "kw_timestamp"
  | .kwDate => "kw_date"
  | .kwPoint => "kw_point"
  | .kwLineString => "kw_linestring"
  | .kwPolygon => "kw_polygon"
  | .kwMultiPoint => "kw_multipoint"
  | .kwMultiLineString => "kw_multilinestring"
  | .kwMultiPolygon => "kw_multipolygon"
  | .kwGeometryCollection => "kw_geometrycollection"
  | .kwZ => "kw_z"

/-- The rules of a list in order, each once. -/
def ordered (rules : List Rule) : List Rule := all.filter (rules.contains ·)

end Rule
end FeatureFilter.Grammar
