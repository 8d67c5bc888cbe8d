import FeatureFilter.Text.Case

namespace FeatureFilter

/-- How two geometries may lie to each other. -/
inductive SpatialOp where
  | intersects
  | within
  | disjoint
  | equals
  | touches
  | overlaps
  | crosses
  | contains
deriving DecidableEq, Repr

inductive ComparisonOp where
  | equal
  | notEqual
  | less
  | lessOrEqual
  | greater
  | greaterOrEqual
deriving DecidableEq, Repr

inductive ArithmeticOp where
  | add
  | subtract
  | multiply
  | divide
deriving DecidableEq, Repr

/-- An operator between two operands. -/
inductive BinaryOp where
  | and
  | or
  | comparison (op : ComparisonOp)
  | spatial (op : SpatialOp)
  | arithmetic (op : ArithmeticOp)
deriving DecidableEq, Repr

inductive UnaryOp where
  | not
  | minus
deriving DecidableEq, Repr

/-- The comparisons of a value with a pattern, a range or a list. -/
inductive AdvancedOp where
  | like
  | between
  | isIn
deriving DecidableEq, Repr

inductive FunctionName where
  | spatial (op : SpatialOp)
  | distanceWithin
  /-- Any other name, in small letters. -/
  | other (name : String)
deriving DecidableEq, Repr

namespace SpatialOp

def all : List SpatialOp :=
  [.intersects, .within, .disjoint, .equals, .touches, .overlaps, .crosses, .contains]

def name : SpatialOp → String
  | .intersects => "s_intersects"
  | .within => "s_within"
  | .disjoint => "s_disjoint"
  | .equals => "s_equals"
  | .touches => "s_touches"
  | .overlaps => "s_overlaps"
  | .crosses => "s_crosses"
  | .contains => "s_contains"

def ofName? (s : String) : Option SpatialOp := all.find? (·.name = Text.lower s)

end SpatialOp

namespace ComparisonOp

def all : List ComparisonOp := [.equal, .notEqual, .less, .lessOrEqual, .greater, .greaterOrEqual]

def name : ComparisonOp → String
  | .equal => "="
  | .notEqual => "<>"
  | .less => "<"
  | .lessOrEqual => "<="
  | .greater => ">"
  | .greaterOrEqual => ">="

end ComparisonOp

namespace ArithmeticOp

def all : List ArithmeticOp := [.add, .subtract, .multiply, .divide]

def name : ArithmeticOp → String
  | .add => "+"
  | .subtract => "-"
  | .multiply => "*"
  | .divide => "/"

end ArithmeticOp

namespace BinaryOp

def all : List BinaryOp :=
  [.and, .or] ++ ComparisonOp.all.map .comparison ++ SpatialOp.all.map .spatial ++
    ArithmeticOp.all.map .arithmetic

def name : BinaryOp → String
  | .and => "and"
  | .or => "or"
  | .comparison op => op.name
  | .spatial op => op.name
  | .arithmetic op => op.name

def ofToken? (s : String) : Option BinaryOp := all.find? (·.name = Text.lower s)

end BinaryOp

namespace UnaryOp

def name : UnaryOp → String
  | .not => "not"
  | .minus => "-"

end UnaryOp

namespace AdvancedOp

def name : AdvancedOp → String
  | .like => "like"
  | .between => "between"
  | .isIn => "in"

end AdvancedOp

namespace FunctionName

def name : FunctionName → String
  | .spatial op => op.name
  | .distanceWithin => "s_dwithin"
  | .other name => name

def ofString (s : String) : FunctionName :=
  let lowered := Text.lower s
  if lowered = "s_dwithin" then .distanceWithin
  else
    match SpatialOp.ofName? lowered with
    | some op => .spatial op
    | none => .other lowered

end FunctionName
end FeatureFilter
