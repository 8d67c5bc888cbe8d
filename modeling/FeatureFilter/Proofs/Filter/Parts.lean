import Mathlib.Data.List.Basic
import FeatureFilter.Filter.Expr

namespace FeatureFilter

namespace Expr

def parts : Expr → List Expr
  | .binary _ _ left right => [left, right]
  | .interval _ start stop => [start, stop]
  | .call _ _ args => args
  | .advanced _ _ _ args => args
  | .box _ items => items
  | .array _ items => items
  | .unary _ _ operand => [operand]
  | .group _ inner => [inner]
  | .isNull _ _ operand => [operand]
  | .property .. | .literal .. | .geometry .. | .geometries .. | .operator .. => []

theorem sizeOf_lt_of_mem_parts {m e : Expr} (h : m ∈ e.parts) : sizeOf m < sizeOf e := by
  cases e with
  | binary | interval => rcases List.mem_pair.1 h with rfl | rfl <;> simp +arith
  | call | advanced | box | array =>
    have hm := List.sizeOf_lt_of_mem h
    simp only [parts] at hm
    simp
    omega
  | unary | group | isNull =>
    cases List.mem_singleton.1 h
    simp +arith
  | property | literal | geometry | geometries | operator => cases h

/-- What holds of a node if it holds of its parts holds of all filters. -/
@[elab_as_elim]
theorem inductionOnParts {motive : Expr → Prop} (e : Expr)
    (node : ∀ e : Expr, (∀ m ∈ e.parts, motive m) → motive e) : motive e := by
  apply node
  intro m hm
  exact inductionOnParts m node
termination_by sizeOf e
decreasing_by exact sizeOf_lt_of_mem_parts hm

/-- A filter has a node, at any depth and among any arguments. -/
inductive Contains : Expr → Expr → Prop
  | self : Contains e e
  | part : m ∈ e.parts → Contains m n → Contains e n

theorem Contains.trans_part (h : Contains e n) (hm : m ∈ n.parts) : e.Contains m := by
  induction h with
  | self => exact .part hm .self
  | part hk _ ih => exact .part hk (ih hm)

end Expr
end FeatureFilter
