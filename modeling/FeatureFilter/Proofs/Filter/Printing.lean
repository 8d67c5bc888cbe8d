import FeatureFilter.Proofs.Filter.GeometryText
import FeatureFilter.Proofs.Filter.Layers

namespace FeatureFilter

open Grammar
open Number (Layout)

def quotedTokens (word : String) (text : List Char) : List (List Char) :=
  word.toList :: tupleTokens [[Text.quote '\'' text]]

/-- Integers have no point and doubles do. -/
def Literal.tokens : Literal → List (List Char)
  | .null => ["NULL".toList]
  | .boolean true => ["TRUE".toList]
  | .boolean false => ["FALSE".toList]
  | .integer n => [(toString n.toInt).toList]
  | .number x => [(Layout.pointed.write x).toList]
  | .string s => [Text.quote '\'' s.toList]
  | .timestamp t => quotedTokens "TIMESTAMP" t.write
  | .date d => quotedTokens "DATE" d.write

def BinaryOp.token : BinaryOp → List Char
  | .and => "AND".toList
  | .or => "OR".toList
  | .comparison op => op.name.toList
  | .spatial op => op.name.toList
  | .arithmetic op => op.name.toList

def UnaryOp.token : UnaryOp → List Char
  | .not => "NOT".toList
  | .minus => "-".toList

def negationTokens (negated : Bool) : List (List Char) := if negated then ["NOT".toList] else []

def AdvancedOp.tokens : AdvancedOp → List (List (List Char)) → List (List Char)
  | .like, parts => "LIKE".toList :: parts.flatten
  | .between, parts => "BETWEEN".toList :: ["AND".toList].intercalate parts
  | .isIn, parts => "IN".toList :: tupleTokens parts

namespace Expr

mutual

def tokens : Expr → List (List Char)
  | .binary _ op left right => left.tokens ++ op.token :: right.tokens
  | .call _ name args => name.name.toList :: tupleTokens (tokensEach args)
  | .advanced _ op negated args =>
    match tokensEach args with
    | [] => []
    | subject :: parts => subject ++ (negationTokens negated ++ op.tokens parts)
  | .property _ name => ['"' :: name.toList ++ ['"']]
  | .literal _ value => value.tokens
  | .geometry _ g => g.tokens
  | .geometries _ members => (Geometry.collection members).tokens
  | .box _ items => "BBOX".toList :: tupleTokens (tokensEach items)
  | .unary _ op operand => op.token :: operand.tokens
  | .group _ inner => tupleTokens [inner.tokens]
  | .array _ items => tupleTokens (tokensEach items)
  | .isNull _ negated operand =>
    operand.tokens ++ "IS".toList :: (negationTokens negated ++ ["NULL".toList])
  | .interval _ start stop => "INTERVAL".toList :: tupleTokens [start.tokens, stop.tokens]
  | .operator _ token => [token.toList]

def tokensEach : List Expr → List (List (List Char))
  | [] => []
  | e :: es => e.tokens :: tokensEach es

end

theorem tokensEach_eq_map (es : List Expr) : tokensEach es = es.map tokens := by
  induction es with
  | nil => rfl
  | cons e es ih => rw [tokensEach, ih, List.map_cons]

theorem tokens_ofGeometry (s : Text.Span) (g : Geometry) : (ofGeometry s g).tokens = g.tokens := by
  cases g <;> simp only [ofGeometry, tokens]

/-- The canonical text: the tokens with one blank between them. -/
def toText (e : Expr) : String := .ofList (spaced e.tokens)

theorem laid_toText (e : Expr) : Laid e.tokens e.toText.toList := by
  rw [toText, String.toList_ofList]
  exact .of_spaced e.tokens

end Expr

namespace Literal

/-- Numbers that a numeral in a box or a geometry stands for. -/
inductive IsOrdinate : Literal → Prop
  | integer : IsOrdinate (.integer n)
  | number : x.isFinite = true → IsOrdinate (.number x)

/-- Literals that are written by themselves. A sign is not part of a number then. -/
inductive Printable : Literal → Prop
  | null : Printable .null
  | boolean : Printable (.boolean b)
  | integer : 0 ≤ n.toInt → Printable (.integer n)
  | number : x.isFinite = true → x.isNegative = false → Printable (.number x)
  | string : Printable (.string s)
  | timestamp : 0 ≤ t.date.year ∧ t.date.year ≤ 9999 → Printable (.timestamp t)
  | date : Printable (.date d)

end Literal

theorem Text.lower_lower (s : String) : lower (lower s) = lower s := by
  have hmap : Char.toLower ∘ Char.toLower = Char.toLower := funext toLower_toLower
  rw [lower, lower, String.toList_ofList, List.map_map, hmap]

namespace FunctionName

theorem name_ofString (word : String) : (ofString word).name = Text.lower word := by
  simp only [ofString]
  by_cases hwithin : Text.lower word = "s_dwithin"
  · rw [if_pos hwithin, hwithin]
    rfl
  · rw [if_neg hwithin]
    cases hop : SpatialOp.ofName? (Text.lower word) with
    | none => rfl
    | some op =>
      rw [SpatialOp.ofName?, Text.lower_lower] at hop
      have hname := List.find?_some hop
      exact of_decide_eq_true hname

theorem ofString_lower (word : String) : ofString (Text.lower word) = ofString word := by
  simp only [ofString, Text.lower_lower]

end FunctionName

/-- The words that no function can have for its name. -/
def keywords : List String :=
  Pattern.reservedWords ++ ["bbox", "interval", "timestamp", "date", "point", "linestring",
    "polygon", "multipoint", "multilinestring", "multipolygon", "geometrycollection"]

/-- Names of functions that are found again by their spelling, and are words but no keywords. -/
structure FunctionName.Printable (name : FunctionName) : Prop where
  ofString_name : FunctionName.ofString name.name = name
  isWord : ∃ c cs, name.name.toList = c :: cs ∧ isNameStart c = true ∧ cs.all isNameChar = true
  free : name.name ∉ keywords

namespace Expr

def PrintableProperty (name : String) : Prop := name ≠ "" ∧ '"' ∉ name.toList

instance (name : String) : Decidable (PrintableProperty name) :=
  inferInstanceAs (Decidable (_ ∧ _))

inductive PrintableBound : Expr → Prop
  | timestamp : 0 ≤ t.date.year ∧ t.date.year ≤ 9999 → PrintableBound (.literal s (.timestamp t))
  | date : PrintableBound (.literal s (.date d))
  | string : PrintableBound (.literal s (.string value))
  | property : PrintableProperty name → PrintableBound (.property s name)

inductive PrintableAtom : Expr → Prop
  | literal : value.Printable → PrintableAtom (.literal s value)
  | property : PrintableProperty name → PrintableAtom (.property s name)
  | box : items ≠ [] → (∀ e ∈ items, ∃ s value, e = .literal s value ∧ value.IsOrdinate) →
    PrintableAtom (.box s items)
  | interval : start.PrintableBound → stop.PrintableBound → PrintableAtom (.interval s start stop)
  | geometry : g.Writable → PrintableAtom (ofGeometry s g)

/-- Filters that are their own canonical text, without further parentheses. -/
def Printable (e : Expr) : Prop :=
  e.Layered FunctionName.Printable PrintableAtom .disjunction

end Expr
end FeatureFilter
