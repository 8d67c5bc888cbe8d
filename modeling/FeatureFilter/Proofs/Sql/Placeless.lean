import FeatureFilter.Compile
import FeatureFilter.Proofs.Filter.Induction
import FeatureFilter.Proofs.Filter.Places
import FeatureFilter.Proofs.Sql.Writing

namespace FeatureFilter

open Sql

namespace Expr

theorem isProperty_unplaced (e : Expr) : e.unplaced.isProperty = e.isProperty := by
  cases e <;> rfl

theorem depthEach_unplaced (h : ∀ e ∈ es, e.unplaced.depth = e.depth) :
    depthEach (unplacedEach es) = depthEach es := by
  induction es with
  | nil => rfl
  | cons e es ih =>
    obtain ⟨he, hes⟩ := List.forall_mem_cons.1 h
    rw [unplacedEach, depthEach, depthEach, he, ih hes]

theorem depth_unplaced (e : Expr) : e.unplaced.depth = e.depth := by
  induction e with
  | binary _ _ _ _ ihl ihr | interval _ _ _ ihl ihr => rw [unplaced, depth, depth, ihl, ihr]
  | call _ _ _ ih | advanced _ _ _ _ ih | box _ _ ih | array _ _ ih =>
    rw [unplaced, depth, depth, depthEach_unplaced ih]
  | unary _ _ _ ih | group _ _ ih | isNull _ _ _ ih => rw [unplaced, depth, depth, ih]
  | property | literal | geometry | geometries | operator => rw [unplaced, depth, depth]

end Expr

namespace Sql

theorem isNumeric_unplaced (e : Expr) : isNumeric e.unplaced = isNumeric e := by
  induction e with
  | unary _ op _ ih =>
    cases op with
    | minus => exact ih
    | not => rfl
  | _ => rfl

theorem foundInBox_unplaced (e : Expr) : foundInBox e.unplaced = foundInBox e := by
  cases e <;> rfl

theorem spatial_unplaced (op : SpatialOp) (left right : Expr) (l r : Script) :
    spatial op left.unplaced right.unplaced l r = spatial op left right l r := by
  rw [spatial, spatial, left.isProperty_unplaced, right.isProperty_unplaced]

theorem function_unplaced (name : FunctionName) (args : List Expr) (scripts : List Script) :
    function name (Expr.unplacedEach args) scripts = function name args scripts := by
  have hlength : (Expr.unplacedEach args).length = args.length := by
    rw [Expr.unplacedEach_eq_map, List.length_map]
  cases name with
  | other => rfl
  | distanceWithin => simp only [function, hlength]
  | spatial op =>
    obtain _ | ⟨left, _ | ⟨right, args⟩⟩ := args
    · rfl
    · rfl
    · obtain _ | ⟨l, _ | ⟨r, scripts⟩⟩ := scripts
      · simp only [function, hlength]
        rfl
      · simp only [function, hlength]
        rfl
      · exact spatial_unplaced op left right l r

theorem box_unplaced (items : List Expr) (scripts : List Script) :
    box (Expr.unplacedEach items) scripts = box items scripts := by
  have hp : ((fun e => !isNumeric e) ∘ Expr.unplaced) = fun e => !isNumeric e := by
    funext e
    exact congrArg _ (isNumeric_unplaced e)
  simp only [box, Expr.unplacedEach_eq_map, List.find?_map, List.length_map, hp]
  cases corners scripts with
  | none => rfl
  | some scripts =>
    cases items.find? fun e => !isNumeric e with
    | none => rfl
    | some e => simp only [Option.map_some, foundInBox_unplaced]

theorem renderEach_unplaced (h : ∀ e ∈ es, render c e.unplaced = render c e) :
    renderEach c (Expr.unplacedEach es) = renderEach c es := by
  induction es with
  | nil => rfl
  | cons e es ih =>
    obtain ⟨he, hes⟩ := List.forall_mem_cons.1 h
    rw [Expr.unplacedEach, renderEach, renderEach, he, ih hes]

theorem render_unplaced (c : Collection) (e : Expr) : render c e.unplaced = render c e := by
  induction e with
  | binary _ op _ _ ihl ihr =>
    cases op with
    | spatial op => simp only [Expr.unplaced, render, ihl, ihr, spatial_unplaced]
    | and | or | comparison | arithmetic => simp only [Expr.unplaced, render, ihl, ihr]
  | call _ _ _ ih =>
    rw [Expr.unplaced, render, render, renderEach_unplaced ih, function_unplaced]
  | advanced _ _ _ _ ih => rw [Expr.unplaced, render, render, renderEach_unplaced ih]
  | box _ items ih => rw [Expr.unplaced, render, render, renderEach_unplaced ih, box_unplaced]
  | array _ items ih =>
    rw [Expr.unplaced, render, render, renderEach_unplaced ih, Expr.unplacedEach_eq_map,
      List.isEmpty_map]
  | unary _ op _ ih =>
    cases op with
    | not | minus => rw [Expr.unplaced, render, render, ih]
  | group _ _ ih | isNull _ _ _ ih => rw [Expr.unplaced, render, render, ih]
  | property | literal | geometry | geometries | interval | operator =>
    rw [Expr.unplaced, render, render]

end Sql

/-- A filter is compiled alike wherever it was read. -/
theorem compileExpr_unplaced (e : Expr) (c : Collection) (options : Options) :
    compileExpr e.unplaced c options = compileExpr e c options := by
  have hrender (d : Draft) : d.render e.unplaced = d.render e := by
    rw [Draft.render_eq_write, Draft.render_eq_write, Sql.render_unplaced]
  simp only [compileExpr, e.depth_unplaced, hrender]

end FeatureFilter
