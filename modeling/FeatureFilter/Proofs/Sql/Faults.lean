import FeatureFilter.Proofs.Filter.Parts
import FeatureFilter.Proofs.Sql.Outline

namespace FeatureFilter

def Sql.Arity.admits : Arity → Nat → Bool
  | .exactly n, found => found = n
  | .atLeast n, found => n ≤ found
  | .corners, found => found = 4 ∨ found = 6

namespace Expr

open Sql

def countFault? (op : String) (expected : Arity) (args : List Expr) : Option Rejection :=
  if expected.admits args.length then none else some (.argumentCount op expected args.length)

/-- The rejection of a node for what it is without its parts. -/
def fault? (c : Collection) : Expr → Option Rejection
  | .interval .. => some (.unsupportedExpression "Interval")
  | .operator _ token => some (.bareOperator token)
  | .binary _ (.arithmetic op) _ _ => some (.unsupportedOperator op.name)
  | .call _ (.other name) _ => some (.unsupportedFunction name)
  | .call _ (.spatial op) args => countFault? op.name (.atLeast 2) args
  | .call _ .distanceWithin args => countFault? "s_dwithin" (.atLeast 3) args
  | .advanced _ .like _ args => countFault? "like" (.exactly 2) args
  | .advanced _ .between _ args => countFault? "between" (.exactly 3) args
  | .advanced _ .isIn _ args => countFault? "in" (.atLeast 2) args
  | .array _ items => if items = [] then some .emptyArray else none
  | .box _ items =>
    (countFault? "bbox" .corners items).or
      ((items.find? (!isNumeric ·)).map fun item => .nonNumericBox (foundInBox item))
  | .property _ name =>
    match c.resolve name with
    | .ok _ => none
    | .error r => some r
  | .binary .. | .literal .. | .geometry .. | .geometries .. | .unary .. | .group .. | .isNull .. =>
    none

theorem admits_corners (l : List α) : Arity.corners.admits l.length = (corners l).isSome := by
  match l with
  | [] | [_] | [_, _] | [_, _, _] | [_, _, _, _] | [_, _, _, _, _] | [_, _, _, _, _, _] => rfl
  | _ :: _ :: _ :: _ :: _ :: _ :: _ :: _ => simp [Arity.admits, corners]

theorem countFault?_eq_none_iff {op : String} {expected : Arity} {args : List Expr} :
    countFault? op expected args = none ↔ expected.admits args.length = true := by
  simp [countFault?]

theorem countFault?_eq_some (h : countFault? op expected args = some r) :
    expected.admits args.length = false ∧ r = .argumentCount op expected args.length := by
  unfold countFault? at h
  split at h
  · cases h
  · rename_i hc
    exact ⟨by simpa using hc, (Option.some.inj h).symm⟩

theorem countFault?_of_not_admits {expected : Arity} {args : List Expr}
    (h : expected.admits args.length = false) (op : String) :
    countFault? op expected args = some (.argumentCount op expected args.length) := by
  rw [countFault?, h]
  rfl

/-- The operands of a spatial predicate, a property first. -/
def propertyFirst (left right : Expr) : List Expr :=
  if !left.isProperty && right.isProperty then [right, left] else [left, right]

/-- The parts of a node that are written, in the order in which they are written. -/
def written : Expr → List Expr
  | .binary _ (.spatial _) left right => propertyFirst left right
  | .binary _ _ left right => [left, right]
  | .call _ (.spatial _) (left :: right :: _) => propertyFirst left right
  | .call _ .distanceWithin args => args.take 3
  | .call _ _ args => args
  | .advanced _ _ _ args => args
  | .box _ items => (corners items).getD items
  | .array _ items => items
  | .unary _ _ operand => [operand]
  | .group _ inner => [inner]
  | .isNull _ _ operand => [operand]
  | .interval _ start stop => [start, stop]
  | .property .. | .literal .. | .geometry .. | .geometries .. | .operator .. => []

theorem mem_propertyFirst : m ∈ propertyFirst left right ↔ m = left ∨ m = right := by
  unfold propertyFirst
  split
  · simp [or_comm]
  · simp

theorem mem_parts_of_mem_written (h : m ∈ written e) : m ∈ e.parts := by
  cases e with
  | binary s op left right =>
    cases op with
    | spatial op => exact List.mem_pair.2 (mem_propertyFirst.1 h)
    | and | or | comparison | arithmetic => exact h
  | call s name args =>
    cases name with
    | other name => exact h
    | distanceWithin => exact List.mem_of_mem_take h
    | spatial op =>
      obtain _ | ⟨left, _ | ⟨right, rest⟩⟩ := args
      · exact h
      · exact h
      · exact List.mem_append_left rest (List.mem_pair.2 (mem_propertyFirst.1 h))
  | box s items =>
    rw [written] at h
    cases hc : corners items with
    | none =>
      rw [hc] at h
      exact h
    | some kept =>
      obtain ⟨_, _, _, _, _, hsub⟩ := corners_eq_some hc
      rw [hc] at h
      exact hsub m h
  | advanced | property | literal | geometry | geometries | unary | group | array | isNull
  | interval | operator => exact h

theorem sizeOf_lt_of_mem_written {m e : Expr} (h : m ∈ e.written) : sizeOf m < sizeOf e :=
  sizeOf_lt_of_mem_parts (mem_parts_of_mem_written h)

/-- The normal form of a node that has no fault. -/
inductive Outlined (c : Collection) : Expr → Outline → Prop
  | and : Outlined c (.binary s .and left right) (.binary .and (left.outline c) (right.outline c))
  | or : Outlined c (.binary s .or left right) (.binary .or (left.outline c) (right.outline c))
  | comparison : Outlined c (.binary s (.comparison op) left right)
      (.binary (.comparison op) (left.outline c) (right.outline c))
  | spatial : propertyFirst left right = [subject, other] →
      Outlined c (.binary s (.spatial op) left right)
        (.spatial op (subject.outline c) (other.outline c))
  | spatialCall : propertyFirst left right = [subject, other] →
      Outlined c (.call s (.spatial op) (left :: right :: rest))
        (.spatial op (subject.outline c) (other.outline c))
  | distanceWithin : Outlined c (.call s .distanceWithin (first :: second :: distance :: rest))
      (.distanceWithin (first.outline c) (second.outline c) (distance.outline c))
  | like : Outlined c (.advanced s .like negated [subject, pattern])
      (.binary (.like negated) (subject.outline c) (pattern.outline c))
  | between : Outlined c (.advanced s .between negated [subject, low, high])
      (.between negated (subject.outline c) (low.outline c) (high.outline c))
  | isIn : Outlined c (.advanced s .isIn negated (subject :: first :: rest))
      (.isIn negated (subject.outline c) (first.outline c) (rest.map (outline c)))
  | property : c.resolve name = .ok col → Outlined c (.property s name) (.column col)
  | literal (value : Literal) : .ofLiteral value = o → Outlined c (.literal s value) o
  | geometry : Outlined c (.geometry s value) .geometry
  | geometries : Outlined c (.geometries s members) .geometry
  | box : corners items = some [west, south, east, north] →
      Outlined c (.box s items)
        (.box (west.outline c) (south.outline c) (east.outline c) (north.outline c))
  | not : Outlined c (.unary s .not operand) (.not (operand.outline c))
  | minus : Outlined c (.unary s .minus operand) (.minus (operand.outline c))
  | group : Outlined c (.group s operand) (.list (operand.outline c) [])
  | array : Outlined c (.array s (first :: rest)) (.list (first.outline c) (rest.map (outline c)))
  | isNull : Outlined c (.isNull s negated operand) (.isNull negated (operand.outline c))

theorem exists_propertyFirst (c : Collection) (op : SpatialOp) (left right : Expr) :
    ∃ subject other, propertyFirst left right = [subject, other] ∧
      Outline.ofSpatial op left right (left.outline c) (right.outline c) =
        .spatial op (subject.outline c) (other.outline c) := by
  unfold propertyFirst Outline.ofSpatial
  split
  · exact ⟨right, left, rfl, rfl⟩
  · exact ⟨left, right, rfl, rfl⟩

/-- A node either has a fault, with which it is rejected, or is written. -/
def Settled (c : Collection) (e : Expr) : Prop :=
  (∃ r, e.fault? c = some r ∧ e.outline c = .reject r) ∨
    e.fault? c = none ∧ e.Outlined c (e.outline c)

theorem settled_call (c : Collection) (s : Text.Span) (name : FunctionName) (args : List Expr) :
    Settled c (.call s name args) := by
  cases name with
  | other name => exact .inl ⟨_, rfl, rfl⟩
  | spatial op =>
    obtain _ | ⟨left, _ | ⟨right, rest⟩⟩ := args
    · exact .inl ⟨_, rfl, rfl⟩
    · exact .inl ⟨_, rfl, rfl⟩
    · obtain ⟨subject, other, hfirst, ho⟩ := exists_propertyFirst c op left right
      have hf : fault? c (.call s (.spatial op) (left :: right :: rest)) = none :=
        countFault?_eq_none_iff.2 (by simp [Arity.admits])
      refine .inr ⟨hf, ?_⟩
      rw [outline, outlineEach, outlineEach, Outline.ofCall, ho]
      exact .spatialCall hfirst
  | distanceWithin =>
    obtain _ | ⟨first, _ | ⟨second, _ | ⟨distance, rest⟩⟩⟩ := args
    · exact .inl ⟨_, rfl, rfl⟩
    · exact .inl ⟨_, rfl, rfl⟩
    · exact .inl ⟨_, rfl, rfl⟩
    · have hf : fault? c (.call s .distanceWithin (first :: second :: distance :: rest)) = none :=
        countFault?_eq_none_iff.2 (by simp [Arity.admits])
      exact .inr ⟨hf, .distanceWithin⟩

theorem settled_advanced (c : Collection) (s : Text.Span) (op : AdvancedOp) (negated : Bool)
    (args : List Expr) : Settled c (.advanced s op negated args) := by
  have hlen : (outlineEach c args).length = args.length := by
    rw [outlineEach_eq_map, List.length_map]
  cases op with
  | like =>
    obtain _ | ⟨subject, _ | ⟨pattern, _ | ⟨third, rest⟩⟩⟩ := args
    · exact .inl ⟨_, rfl, rfl⟩
    · exact .inl ⟨_, rfl, rfl⟩
    · exact .inr ⟨rfl, .like⟩
    · refine .inl ⟨_, countFault?_of_not_admits (by simp [Arity.admits]) "like", ?_⟩
      rw [← hlen]
      rfl
  | between =>
    obtain _ | ⟨subject, _ | ⟨low, _ | ⟨high, _ | ⟨fourth, rest⟩⟩⟩⟩ := args
    · exact .inl ⟨_, rfl, rfl⟩
    · exact .inl ⟨_, rfl, rfl⟩
    · exact .inl ⟨_, rfl, rfl⟩
    · exact .inr ⟨rfl, .between⟩
    · refine .inl ⟨_, countFault?_of_not_admits (by simp [Arity.admits]) "between", ?_⟩
      rw [← hlen]
      rfl
  | isIn =>
    obtain _ | ⟨subject, _ | ⟨first, rest⟩⟩ := args
    · exact .inl ⟨_, rfl, rfl⟩
    · exact .inl ⟨_, rfl, rfl⟩
    · have hf : fault? c (.advanced s .isIn negated (subject :: first :: rest)) = none :=
        countFault?_eq_none_iff.2 (by simp [Arity.admits])
      refine .inr ⟨hf, ?_⟩
      rw [outline, outlineEach_eq_map]
      exact .isIn

theorem settled_box (c : Collection) (s : Text.Span) (items : List Expr) :
    Settled c (.box s items) := by
  unfold Settled
  rw [fault?, outline, outlineEach_eq_map, Outline.ofBox, corners_map]
  cases hc : corners items with
  | none =>
    have hn : Arity.corners.admits items.length = false := by rw [admits_corners, hc]; rfl
    rw [countFault?_of_not_admits hn]
    exact .inl ⟨_, rfl, rfl⟩
  | some kept =>
    have hn : Arity.corners.admits items.length = true := by rw [admits_corners, hc]; rfl
    obtain ⟨west, south, east, north, rfl, _⟩ := corners_eq_some hc
    rw [countFault?_eq_none_iff.2 hn, Option.none_or]
    cases items.find? (!isNumeric ·) with
    | some item => exact .inl ⟨_, rfl, rfl⟩
    | none => exact .inr ⟨rfl, .box hc⟩

theorem settled (c : Collection) (e : Expr) : e.Settled c := by
  cases e with
  | binary s op left right =>
    cases op with
    | and => exact .inr ⟨rfl, .and⟩
    | or => exact .inr ⟨rfl, .or⟩
    | comparison op => exact .inr ⟨rfl, .comparison⟩
    | spatial op =>
      obtain ⟨subject, other, hfirst, ho⟩ := exists_propertyFirst c op left right
      refine .inr ⟨rfl, ?_⟩
      rw [outline, ho]
      exact .spatial hfirst
    | arithmetic op => exact .inl ⟨_, rfl, rfl⟩
  | call s name args => exact settled_call c s name args
  | advanced s op negated args => exact settled_advanced c s op negated args
  | property s name =>
    unfold Settled
    rw [fault?, outline]
    cases hr : c.resolve name with
    | ok column => exact .inr ⟨rfl, .property hr⟩
    | error r => exact .inl ⟨r, rfl, rfl⟩
  | literal => exact .inr ⟨rfl, .literal _ rfl⟩
  | geometry => exact .inr ⟨rfl, .geometry⟩
  | geometries => exact .inr ⟨rfl, .geometries⟩
  | box s items => exact settled_box c s items
  | unary s op operand =>
    cases op with
    | not => exact .inr ⟨rfl, .not⟩
    | minus => exact .inr ⟨rfl, .minus⟩
  | group => exact .inr ⟨rfl, .group⟩
  | array s items =>
    cases items with
    | nil => exact .inl ⟨_, rfl, rfl⟩
    | cons first rest =>
      refine .inr ⟨rfl, ?_⟩
      rw [outline, outlineEach_eq_map]
      exact .array
  | isNull => exact .inr ⟨rfl, .isNull⟩
  | interval | operator => exact .inl ⟨_, rfl, rfl⟩

theorem outline_eq_reject (h : fault? c e = some r) : e.outline c = .reject r := by
  rcases e.settled c with ⟨r', hf, ho⟩ | ⟨hf, -⟩
  · cases h.symm.trans hf
    exact ho
  · cases h.symm.trans hf

theorem outlined (h : fault? c e = none) : e.Outlined c (e.outline c) := by
  rcases e.settled c with ⟨r, hf, -⟩ | ⟨-, ho⟩
  · cases h.symm.trans hf
  · exact ho

theorem outlined_of_rejections (h : (outline c e).rejections = []) :
    e.Outlined c (e.outline c) := by
  rcases e.settled c with ⟨r, -, ho⟩ | ⟨-, ho⟩
  · rw [ho] at h
    cases h
  · exact ho

/-- The parts of a normal form are those of the written parts of the node. -/
theorem Outlined.parts_eq (h : Outlined c e o) : o.parts = e.written.map (outline c) := by
  cases h with
  | spatial hfirst | spatialCall hfirst =>
    rw [written, hfirst]
    rfl
  | box hc =>
    rw [written, hc]
    rfl
  | literal value ho =>
    cases ho
    cases value <;> rfl
  | _ => rfl

theorem mem_parts_of_mem_parts_outline (h : o ∈ (outline c e).parts) :
    ∃ m ∈ e.parts, m.outline c = o := by
  rcases e.settled c with ⟨r, -, ho⟩ | ⟨-, ho⟩
  · rw [ho] at h
    cases h
  · rw [ho.parts_eq] at h
    obtain ⟨m, hm, he⟩ := List.mem_map.1 h
    exact ⟨m, mem_parts_of_mem_written hm, he⟩

theorem Outlined.ne_reject (h : Outlined c e o) (r : Rejection) : o ≠ .reject r := by
  cases h with
  | literal value ho =>
    cases ho
    cases value <;> simp [Outline.ofLiteral]
  | _ => simp

end Expr
end FeatureFilter
