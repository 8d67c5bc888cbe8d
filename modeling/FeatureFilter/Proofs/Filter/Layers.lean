import FeatureFilter.Filter.Expr
import FeatureFilter.Grammar.Rule

namespace FeatureFilter

open Grammar (Rule)

namespace Grammar.Rule

/-- The next layer, without the operators of a layer. -/
def tighter? : Rule → Option Rule
  | .disjunction => some .conjunction
  | .conjunction => some .negation
  | .negation => some .predicate
  | .predicate => some .additive
  | .additive => some .multiplicative
  | .multiplicative => some .unary
  | _ => none

end Grammar.Rule

theorem BinaryOp.ofToken?_eq_some (h : Text.lower token = op.name) : ofToken? token = some op := by
  rw [ofToken?, h]
  cases op with
  | and | or => rfl
  | comparison op | spatial op | arithmetic op => cases op <;> rfl

/-- The operators that join operands from the left: their layer and that of their right operand. -/
inductive BinaryOp.Joins : Rule → BinaryOp → Rule → Prop
  | or : Joins .disjunction .or .conjunction
  | and : Joins .conjunction .and .negation
  | add : Joins .additive (.arithmetic .add) .multiplicative
  | subtract : Joins .additive (.arithmetic .subtract) .multiplicative
  | multiply : Joins .multiplicative (.arithmetic .multiply) .unary
  | divide : Joins .multiplicative (.arithmetic .divide) .unary

/-- The operators between exactly two operands. -/
inductive BinaryOp.Relates : BinaryOp → Prop
  | comparison : Relates (.comparison op)
  | spatial : Relates (.spatial op)

def AdvancedOp.Takes : AdvancedOp → Nat → Prop
  | .like, n => n = 2
  | .between, n => n = 3
  | .isIn, n => 2 ≤ n

namespace Expr

/-- Filters that are written without further parentheses where a rule is expected. What is said of
the names of functions and of filters without operators is left open. -/
inductive Layered (Name : FunctionName → Prop) (Atom : Expr → Prop) : Rule → Expr → Prop
  | tighter : r.tighter? = some r' → Layered Name Atom r' e → Layered Name Atom r e
  | join : op.Joins r item → Layered Name Atom r left → Layered Name Atom item right →
    Layered Name Atom r (.binary s op left right)
  | not : Layered Name Atom .negation e → Layered Name Atom .negation (.unary s .not e)
  | relate : op.Relates → Layered Name Atom .additive left → Layered Name Atom .additive right →
    Layered Name Atom .predicate (.binary s op left right)
  | advanced : op.Takes args.length → (∀ e ∈ args, Layered Name Atom .additive e) →
    Layered Name Atom .predicate (.advanced s op negated args)
  | isNull : Layered Name Atom .additive e →
    Layered Name Atom .predicate (.isNull s negated e)
  | minus : Layered Name Atom .unary e → Layered Name Atom .unary (.unary s .minus e)
  | group : Layered Name Atom .disjunction e → Layered Name Atom .unary (.group s e)
  | array : items.length ≠ 1 → (∀ e ∈ items, Layered Name Atom .disjunction e) →
    Layered Name Atom .unary (.array s items)
  | call : Name name → (∀ e ∈ args, Layered Name Atom .disjunction e) →
    Layered Name Atom .unary (.call s name args)
  | atom : Atom e → Layered Name Atom .unary e

namespace Layered

theorem additive (h : Layered Name Atom .unary e) : Layered Name Atom .additive e :=
  .tighter rfl (.tighter rfl h)

theorem conjunction (h : Layered Name Atom .predicate e) : Layered Name Atom .conjunction e :=
  .tighter rfl (.tighter rfl h)

theorem disjunction (h : Layered Name Atom .unary e) : Layered Name Atom .disjunction e :=
  .tighter rfl (conjunction (.tighter rfl (additive h)))

end Layered

inductive IsNumeral : Expr → Prop
  | integer : IsNumeral (.literal s (.integer n))
  | number : IsNumeral (.literal s (.number x))

inductive IsBound : Expr → Prop
  | timestamp : IsBound (.literal s (.timestamp t))
  | date : IsBound (.literal s (.date d))
  | string : IsBound (.literal s (.string text))
  | property : IsBound (.property s name)

end Expr
end FeatureFilter
