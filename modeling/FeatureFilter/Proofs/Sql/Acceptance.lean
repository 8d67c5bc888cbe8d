import FeatureFilter.Proofs.Sql.Provenance
import FeatureFilter.Proofs.Sql.Rendering

namespace FeatureFilter

theorem Collection.resolve_eq_ok_iff (c : Collection) (property column : String) :
    c.resolve property = .ok column ↔ c.Holds property column ∧ Text.isBlank column = false := by
  unfold Collection.resolve Collection.Holds
  by_cases hq : property ∈ c.queryables
  · have hb : c.isQueryable property = true := by simpa [Collection.isQueryable] using hq
    by_cases hg : property = geometryProperty
    · simp only [hg, Collection.resolveGeometry]
      grind
    · cases c.propertyMap.get? property with
      | none => simp [hb, hg]
      | some mapped =>
        simp only [hb, hq, hg]
        grind
  · have hb : c.isQueryable property = false := by simpa [Collection.isQueryable] using hq
    simp [hb, hq]

namespace Expr

open Sql

/-- A numeric literal behind any number of minus signs. -/
inductive IsNumber : Expr → Prop
  | integer : IsNumber (.literal s (.integer n))
  | number : IsNumber (.literal s (.number x))
  | minus : IsNumber operand → IsNumber (.unary s .minus operand)

theorem isNumeric_iff (e : Expr) : isNumeric e = true ↔ e.IsNumber := by
  constructor
  · intro h
    fun_induction isNumeric e with
    | case1 s value =>
      cases value with
      | integer n => exact .integer
      | number x => exact .number
      | null | boolean | string | timestamp | date => cases h
    | case2 s operand ih => exact .minus (ih h)
    | case3 => cases h
  · intro h
    induction h with
    | integer => rfl
    | number => rfl
    | minus _ ih => exact ih

/-- What a collection makes of a node without its parts: whether it can be written. -/
def Supported (c : Collection) : Expr → Prop
  | .interval .. | .operator .. => False
  | .binary _ op _ _ => ∀ a, op ≠ .arithmetic a
  | .call _ (.other _) _ => False
  | .call _ (.spatial _) args => 2 ≤ args.length
  | .call _ .distanceWithin args => 3 ≤ args.length
  | .advanced _ .like _ args => args.length = 2
  | .advanced _ .between _ args => args.length = 3
  | .advanced _ .isIn _ args => 2 ≤ args.length
  | .array _ items => items ≠ []
  | .box _ items => (items.length = 4 ∨ items.length = 6) ∧ ∀ item ∈ items, item.IsNumber
  | .property _ name => ∃ column, c.Holds name column ∧ Text.isBlank column = false
  | .literal .. | .geometry .. | .geometries .. | .unary .. | .group .. | .isNull .. => True

/-- A node is supported exactly when it has no fault. -/
theorem supported_iff (c : Collection) (e : Expr) : e.Supported c ↔ e.fault? c = none := by
  cases e with
  | binary s op left right => cases op <;> simp [Supported, fault?]
  | call s name args =>
    cases name <;> simp [Supported, fault?, countFault?_eq_none_iff, Arity.admits]
  | advanced s op negated args =>
    cases op <;> simp [Supported, fault?, countFault?_eq_none_iff, Arity.admits]
  | property s name =>
    simp only [Supported, fault?, ← c.resolve_eq_ok_iff]
    cases c.resolve name <;> simp
  | box s items =>
    simp [Supported, fault?, countFault?_eq_none_iff, Arity.admits, isNumeric_iff]
  | array s items => simp [Supported, fault?]
  | literal | geometry | geometries | unary | group | isNull | interval | operator =>
    simp [Supported, fault?]

/-- The nodes that are looked at, each before its parts. The parts of a node with a fault are not
looked at. -/
def live (c : Collection) (e : Expr) : List Expr :=
  e :: if e.fault? c = none then e.written.attach.flatMap fun m => live c m.1 else []
termination_by sizeOf e
decreasing_by exact sizeOf_lt_of_mem_written m.2

theorem live_eq (c : Collection) (e : Expr) :
    e.live c = e :: if e.fault? c = none then e.written.flatMap (live c) else [] := by
  rw [live, List.flatMap_subtype fun _ _ => rfl, List.unattach_attach]

theorem rejections_outline (h : fault? c e = none) :
    (e.outline c).rejections = e.written.flatMap fun m => (m.outline c).rejections := by
  have ho := outlined h
  rw [Outline.rejections_eq_flatMap ho.ne_reject, ho.parts_eq, List.flatMap_map]

/-- The rejections in a normal form are the faults of the nodes that are looked at. -/
theorem rejections_eq_faults (c : Collection) (e : Expr) :
    (e.outline c).rejections = (e.live c).filterMap (fault? c) := by
  rw [live_eq]
  cases h : e.fault? c with
  | some r => simp [outline_eq_reject h, Outline.rejections, h]
  | none =>
    have ih : ∀ m ∈ e.written, (m.outline c).rejections = (m.live c).filterMap (fault? c) :=
      fun m hm => rejections_eq_faults c m
    rw [rejections_outline h, if_pos rfl, List.filterMap_cons_none h, List.filterMap_flatMap]
    exact List.flatMap_congr ih
termination_by sizeOf e
decreasing_by exact sizeOf_lt_of_mem_written hm

/-- A node is looked at if it is the whole filter, or a written part of a supported node that is
looked at. -/
inductive Live (c : Collection) (e : Expr) : Expr → Prop
  | root : Live c e e
  | part : Live c e n → n.Supported c → m ∈ n.written → Live c e m

theorem mem_live_of_mem_written (h : fault? c e = none) (hm : m ∈ e.written)
    (hn : n ∈ m.live c) : n ∈ e.live c := by
  rw [live_eq, if_pos h]
  exact List.mem_cons_of_mem _ (List.mem_flatMap.2 ⟨m, hm, hn⟩)

theorem mem_live_cases (h : n ∈ live c e) :
    n = e ∨ e.fault? c = none ∧ ∃ m ∈ e.written, n ∈ m.live c := by
  rw [live_eq, List.mem_cons] at h
  rcases h with h | h
  · exact .inl h
  · split at h
    · rename_i hf
      exact .inr ⟨hf, List.mem_flatMap.1 h⟩
    · cases h

theorem mem_live_trans (hn : n ∈ live c e) (hm : m ∈ n.live c) : m ∈ e.live c := by
  rcases mem_live_cases hn with rfl | ⟨hf, k, hk, hn⟩
  · exact hm
  · exact mem_live_of_mem_written hf hk (mem_live_trans hn hm)
termination_by sizeOf e
decreasing_by exact sizeOf_lt_of_mem_written hk

theorem Live.of_mem_live (h : Live c e m) (hn : n ∈ m.live c) : Live c e n := by
  rcases mem_live_cases hn with rfl | ⟨hf, k, hk, hn⟩
  · exact h
  · exact (h.part ((supported_iff c m).2 hf) hk).of_mem_live hn
termination_by sizeOf m
decreasing_by exact sizeOf_lt_of_mem_written hk

theorem mem_live_iff (c : Collection) (e n : Expr) : n ∈ e.live c ↔ e.Live c n := by
  have hself (m : Expr) : m ∈ m.live c := by
    rw [live_eq]
    exact List.mem_cons_self
  constructor
  · intro h
    exact Live.root.of_mem_live h
  · intro h
    induction h with
    | root => exact hself e
    | part _ hs hm ih =>
      have hf := (supported_iff c _).1 hs
      exact mem_live_trans ih (mem_live_of_mem_written hf hm (hself _))

end Expr

def Options.Admits (options : Options) (e : Expr) : Prop :=
  ∀ limit, options.maxDepth = some limit → e.depth ≤ limit

theorem Options.admits_iff (options : Options) (e : Expr) :
    options.Admits e ↔ options.maxDepth.filter (· < e.depth) = none := by
  rw [Options.Admits, Option.filter_eq_none_iff]
  simp

theorem Options.admits_default (e : Expr) : ({} : Options).Admits e := by
  intro limit h
  cases h

theorem compileExpr_ok_iff (e : Expr) (c : Collection) (options : Options) :
    (∃ f, compileExpr e c options = .ok f) ↔
      options.Admits e ∧ (e.live c).findSome? (Expr.fault? c) = none := by
  rw [compileExpr_eq, e.rejections_eq_faults, List.head?_filterMap, Options.admits_iff]
  cases options.maxDepth.filter (· < e.depth) with
  | some limit => simp
  | none => cases (e.live c).findSome? (Expr.fault? c) <;> simp

theorem compileExpr_error_iff (e : Expr) (c : Collection) (options : Options)
    (r : Sql.Rejection) :
    compileExpr e c options = .error r ↔
      (∃ limit, options.maxDepth.filter (· < e.depth) = some limit ∧ r = .tooDeep e.depth limit) ∨
      options.Admits e ∧ (e.live c).findSome? (Expr.fault? c) = some r := by
  rw [compileExpr_eq, e.rejections_eq_faults, List.head?_filterMap, Options.admits_iff]
  cases options.maxDepth.filter (· < e.depth) with
  | some limit => simp [eq_comm]
  | none => cases (e.live c).findSome? (Expr.fault? c) <;> simp

/-- The fault of a whole filter comes before those of its parts. -/
theorem compileExpr_of_fault (h : Expr.fault? c e = some r) (hdepth : options.Admits e) :
    compileExpr e c options = .error r := by
  apply (compileExpr_error_iff e c options r).2
  refine .inr ⟨hdepth, ?_⟩
  rw [Expr.live_eq, h, if_neg (Option.some_ne_none r), List.findSome?_cons, h]

/-- A filter is accepted exactly when its depth is within the limit and every node that is looked at
is supported. Otherwise the depth is reported if it is beyond the limit, and else the fault of the
first node that has one. -/
theorem compileExpr_outcome (e : Expr) (c : Collection) (options : Options) :
    ((∃ f, compileExpr e c options = .ok f) ↔
      options.Admits e ∧ ∀ n, e.Live c n → n.Supported c) ∧
    ∀ r, compileExpr e c options = .error r ↔
      (∃ limit, options.maxDepth = some limit ∧ limit < e.depth ∧ r = .tooDeep e.depth limit) ∨
      options.Admits e ∧ ∃ before n after, e.live c = before ++ n :: after ∧
        n.fault? c = some r ∧ ∀ m ∈ before, m.Supported c := by
  constructor
  · rw [compileExpr_ok_iff, List.findSome?_eq_none_iff]
    simp only [e.mem_live_iff, Expr.supported_iff]
  · intro r
    rw [compileExpr_error_iff, List.findSome?_eq_some_iff]
    simp only [Option.filter_eq_some_iff, decide_eq_true_eq, and_assoc, Expr.supported_iff]

-- A property comes first in a spatial predicate, so its fault is reported before that on its left.
example : compileExpr
    (.binary .zero (.spatial .within) (.operator .zero "and") (.property .zero "owner"))
    (Collection.new "lakes" ["geometry"] "geom") {} =
      .error (.notQueryable "owner" "lakes" ["geometry"]) := rfl

end FeatureFilter
