import FeatureFilter.Proofs.Sql.Rendering

namespace FeatureFilter

/-- Collections with one name and one list of queryable properties, each in the same column. What is
mapped for other properties is free, and so is what is mapped for the name of the geometry. -/
structure Collection.SameToFilters (a b : Collection) : Prop where
  id : a.id = b.id
  queryables : a.queryables = b.queryables
  mapped : ∀ property ∈ a.queryables, property ≠ geometryProperty →
    a.propertyMap.get? property = b.propertyMap.get? property
  geometry : geometryProperty ∈ a.queryables → a.geometryColumn = b.geometryColumn

theorem Collection.SameToFilters.resolve_eq (h : SameToFilters a b) (property : String) :
    a.resolve property = b.resolve property := by
  have hq : a.isQueryable property = b.isQueryable property := by
    rw [isQueryable, isQueryable, h.queryables]
  rw [resolve, resolve, ← hq, h.id, h.queryables]
  cases hb : a.isQueryable property with
  | false => rfl
  | true =>
    have hm : property ∈ a.queryables := by
      rw [isQueryable, List.contains_iff_mem] at hb
      exact hb
    by_cases hg : property = geometryProperty
    · subst hg
      rw [if_pos rfl, if_pos rfl, resolveGeometry, resolveGeometry, h.geometry hm, h.id]
    · rw [if_neg hg, if_neg hg, h.mapped property hm hg]

namespace Sql

/-- A predicate depends on a collection only through the columns of properties. -/
theorem render_congr (h : ∀ property, Collection.resolve a property = b.resolve property)
    (e : Expr) : render a e = render b e := by
  have heach {es : List Expr} (ih : ∀ e ∈ es, render a e = render b e) :
      renderEach a es = renderEach b es := by
    rw [renderEach_eq_map, renderEach_eq_map]
    exact List.map_congr_left ih
  induction e with
  | binary s op left right hl hr => cases op <;> simp only [render, hl, hr]
  | call s name args ih => rw [render, render, heach ih]
  | advanced s op negated args ih => rw [render, render, heach ih]
  | property s name => rw [render, render, column, column, h]
  | literal s value => rw [render, render]
  | geometry s value => rw [render, render]
  | geometries s members => rw [render, render]
  | box s items ih => rw [render, render, heach ih]
  | unary s op operand ih => cases op <;> rw [render, render, ih]
  | group s inner ih => rw [render, render, ih]
  | array s items ih => rw [render, render, heach ih]
  | isNull s negated operand ih => rw [render, render, ih]
  | interval s start stop _ _ => rw [render, render]
  | operator s token => rw [render, render]

end Sql

open Sql

theorem compileExpr_congr (h : ∀ property, Collection.resolve a property = b.resolve property)
    (e : Expr) (options : Options) : compileExpr e a options = compileExpr e b options := by
  simp only [compileExpr, Draft.empty_render, ← render_rejection, render_congr h]
  cases options.maxDepth.filter (· < e.depth) with
  | some limit => rfl
  | none => cases (render b e).rejection <;> rfl

theorem compile_congr (h : ∀ property, Collection.resolve a property = b.resolve property)
    (filter : String) (options : Options) :
    compile filter a options = compile filter b options := by
  rw [compile, compile]
  cases Expr.read options.language filter with
  | error e => rfl
  | ok e => exact compileExpr_congr h e options

/-- What a collection maps for properties that are not queryable, and for the name of the geometry,
shows neither in the outcome of a compilation nor in its events. -/
theorem compile_eq_of_sameToFilters (h : Collection.SameToFilters a b) (filter : String)
    (options : Options) :
    compile filter a options = compile filter b options ∧
      compileEvents filter a options = compileEvents filter b options := by
  have hc := compile_congr h.resolve_eq filter options
  refine ⟨hc, ?_⟩
  rw [compileEvents, compileEvents, hc, h.id]

/-- A filter that names a hidden property and the geometry learns neither what the property is
mapped to nor what the name of the geometry is mapped to. -/
theorem compile_eq_of_sameToFilters_hidden :
    ((Collection.new "lakes" ["name", "geometry"] "geom").withProperty "name" "lake_name"
      ).SameToFilters
      ((((Collection.new "lakes" ["name", "geometry"] "geom").withProperty "name" "lake_name"
        ).withProperty "owner" "secret.owner").withProperty "geometry" "secret.geom") ∧
    compile "owner = 'x' OR geometry IS NULL"
      ((Collection.new "lakes" ["name", "geometry"] "geom").withProperty "name" "lake_name") {} =
    compile "owner = 'x' OR geometry IS NULL"
      ((((Collection.new "lakes" ["name", "geometry"] "geom").withProperty "name" "lake_name"
        ).withProperty "owner" "secret.owner").withProperty "geometry" "secret.geom") {} := by
  have h : ((Collection.new "lakes" ["name", "geometry"] "geom").withProperty "name" "lake_name"
      ).SameToFilters
      ((((Collection.new "lakes" ["name", "geometry"] "geom").withProperty "name" "lake_name"
        ).withProperty "owner" "secret.owner").withProperty "geometry" "secret.geom") :=
    ⟨rfl, rfl, by decide, fun _ => rfl⟩
  exact ⟨h, (compile_eq_of_sameToFilters h _ _).1⟩

end FeatureFilter
