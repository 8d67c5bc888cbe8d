import FeatureFilter.Proofs.Sql.Acceptance

namespace FeatureFilter

/-- The arguments that a function takes of a list. -/
def FunctionName.taken (name : FunctionName) (args : List α) : List α :=
  match name with
  | .spatial _ => args.take 2
  | .distanceWithin => args.take 3
  | .other _ => args

theorem FunctionName.taken_map (name : FunctionName) (f : α → β) (args : List α) :
    name.taken (args.map f) = (name.taken args).map f := by
  cases name <;> simp [taken, List.map_take]

namespace Expr

open Sql

/-- Intervals, operators without operands, arithmetic, unknown functions, and properties that are
not queryable. -/
def Forbidden (c : Collection) : Expr → Prop
  | .interval .. | .operator .. => True
  | .binary _ op _ _ => ∃ a, op = .arithmetic a
  | .call _ name _ => ∃ other, name = .other other
  | .property _ name => name ∉ c.queryables
  | _ => False

mutual

/-- A filter without the arguments that its functions do not take. -/
def trim : Expr → Expr
  | .binary s op left right => .binary s op left.trim right.trim
  | .call s name args => .call s name (name.taken (trimEach args))
  | .advanced s op negated args => .advanced s op negated (trimEach args)
  | .box s items => .box s (trimEach items)
  | .unary s op operand => .unary s op operand.trim
  | .group s inner => .group s inner.trim
  | .array s items => .array s (trimEach items)
  | .isNull s negated operand => .isNull s negated operand.trim
  | .interval s start stop => .interval s start.trim stop.trim
  | .property s name => .property s name
  | .literal s value => .literal s value
  | .geometry s value => .geometry s value
  | .geometries s members => .geometries s members
  | .operator s token => .operator s token

def trimEach : List Expr → List Expr
  | [] => []
  | e :: es => e.trim :: trimEach es

end

theorem trimEach_eq_map (es : List Expr) : trimEach es = es.map trim := by
  induction es with
  | nil => rfl
  | cons e es ih => rw [trimEach, ih, List.map_cons]

theorem isProperty_trim (e : Expr) : e.trim.isProperty = e.isProperty := by
  cases e <;> rfl

theorem isNumeric_trim (e : Expr) : isNumeric e.trim = isNumeric e := by
  induction e with
  | unary s op operand ih =>
    cases op with
    | not => rfl
    | minus => exact ih
  | _ => rfl

theorem foundInBox_trim (e : Expr) : foundInBox e.trim = foundInBox e := by
  cases e <;> rfl

theorem forbidden_trim (c : Collection) (e : Expr) : e.trim.Forbidden c ↔ e.Forbidden c := by
  cases e <;> rfl

/-- The parts of a node that are looked at for faults. -/
def taken : Expr → List Expr
  | .call _ name args => name.taken args
  | e => e.parts

theorem parts_trim (e : Expr) : e.trim.parts = e.taken.map trim := by
  cases e <;> simp [trim, parts, taken, trimEach_eq_map, FunctionName.taken_map]

theorem not_forbidden_of_supported (h : Supported c e) : ¬e.Forbidden c := by
  cases e with
  | binary s op left right =>
    rintro ⟨a, ha⟩
    exact h a ha
  | call s name args =>
    rintro ⟨other, rfl⟩
    exact h
  | property s name =>
    obtain ⟨column, ⟨hq, _⟩, _⟩ := h
    exact not_not_intro hq
  | interval | operator => exact h.elim
  | advanced | literal | geometry | geometries | box | unary | group | array | isNull => exact id

/-- A part that is taken is written, unless it is a height of a box in space, which is a number. -/
theorem mem_written_or_isNumber (h : Supported c e) (hm : m ∈ e.taken) :
    m ∈ e.written ∨ m.IsNumber := by
  cases e with
  | binary s op left right =>
    left
    cases op <;> simpa [written, mem_propertyFirst] using List.mem_pair.1 hm
  | call s name args =>
    left
    cases name with
    | other name => exact hm
    | distanceWithin => exact hm
    | spatial op =>
      obtain _ | ⟨left, _ | ⟨right, rest⟩⟩ := args
      · exact hm
      · exact hm
      · exact mem_propertyFirst.2 (List.mem_pair.1 hm)
  | box s items => exact .inr (h.2 m hm)
  | interval | operator | advanced | property | literal | geometry | geometries | unary | group
  | array | isNull => exact .inl hm

theorem IsNumber.rejections_outline (h : IsNumber e) (c : Collection) :
    (e.outline c).rejections = [] := by
  induction h with
  | integer => rfl
  | number => rfl
  | minus _ ih => exact ih

theorem supported_of_rejections (h : (outline c e).rejections = []) : e.Supported c := by
  rw [supported_iff]
  cases hf : e.fault? c with
  | none => rfl
  | some r =>
    rw [outline_eq_reject hf] at h
    cases h

theorem rejections_of_mem_taken (h : (outline c e).rejections = []) (hm : m ∈ e.taken) :
    (m.outline c).rejections = [] := by
  have hs := supported_of_rejections h
  rcases mem_written_or_isNumber hs hm with hw | hn
  · rw [Expr.rejections_outline ((supported_iff c e).1 hs), List.flatMap_eq_nil_iff] at h
    exact h m hw
  · exact hn.rejections_outline c

/-- Without rejections there is no forbidden node, but in arguments that are not taken. -/
theorem not_forbidden_of_contains_trim (h : (outline c e).rejections = [])
    (hn : e.trim.Contains n) : ¬n.Forbidden c := by
  generalize ht : e.trim = t at hn
  induction hn generalizing e with
  | self =>
    rw [← ht, forbidden_trim]
    exact not_forbidden_of_supported (supported_of_rejections h)
  | part hm _ ih =>
    rw [← ht, parts_trim, List.mem_map] at hm
    obtain ⟨k, hk, rfl⟩ := hm
    exact ih (rejections_of_mem_taken h hk) rfl

end Expr

namespace Sql

theorem renderEach_taken (c : Collection) (name : FunctionName) (es : List Expr) :
    renderEach c (name.taken es) = name.taken (renderEach c es) := by
  rw [renderEach_eq_map, renderEach_eq_map, FunctionName.taken_map]

theorem spatial_trim (op : SpatialOp) (left right : Expr) (s t : Script) :
    spatial op left.trim right.trim s t = spatial op left right s t := by
  rw [spatial, spatial, left.isProperty_trim, right.isProperty_trim]

theorem function_taken (name : FunctionName) (args : List Expr) (c : Collection) :
    function name (name.taken (Expr.trimEach args)) (name.taken (renderEach c args)) =
      function name args (renderEach c args) := by
  cases name with
  | other name => rfl
  | spatial op =>
    match args with
    | [] | [_] => rfl
    | left :: right :: _ => exact spatial_trim op left right _ _
  | distanceWithin =>
    match args with
    | [] | [_] | [_, _] | _ :: _ :: _ :: _ => rfl

theorem box_trim (items : List Expr) (scripts : List Script) :
    box (Expr.trimEach items) scripts = box items scripts := by
  have hf : (Expr.trimEach items).find? (!isNumeric ·) =
      (items.find? (!isNumeric ·)).map Expr.trim := by
    rw [Expr.trimEach_eq_map, List.find?_map]
    simp only [Function.comp_def, Expr.isNumeric_trim]
  have hl : (Expr.trimEach items).length = items.length := by
    rw [Expr.trimEach_eq_map, List.length_map]
  rw [box, box, hf, hl]
  cases corners scripts with
  | none => rfl
  | some kept =>
    cases items.find? (!isNumeric ·) with
    | none => rfl
    | some e => simp only [Option.map_some, Expr.foundInBox_trim]

theorem render_trim (c : Collection) (e : Expr) : render c e.trim = render c e := by
  have heach {es : List Expr} (ih : ∀ e ∈ es, render c e.trim = render c e) :
      renderEach c (Expr.trimEach es) = renderEach c es := by
    rw [renderEach_eq_map, renderEach_eq_map, Expr.trimEach_eq_map, List.map_map]
    exact List.map_congr_left ih
  induction e with
  | binary s op left right hl hr =>
    cases op <;> simp only [Expr.trim, render, hl, hr, spatial_trim]
  | call s name args ih =>
    rw [Expr.trim, render, render, renderEach_taken, heach ih, function_taken]
  | advanced s op negated args ih => rw [Expr.trim, render, render, heach ih]
  | box s items ih => rw [Expr.trim, render, render, heach ih, box_trim]
  | unary s op operand ih => cases op <;> rw [Expr.trim, render, render, ih]
  | group s inner ih => rw [Expr.trim, render, render, ih]
  | array s items ih =>
    have hn : (Expr.trimEach items).isEmpty = items.isEmpty := by
      rw [Expr.trimEach_eq_map, List.isEmpty_map]
    rw [Expr.trim, render, render, heach ih, hn]
  | isNull s negated operand ih => rw [Expr.trim, render, render, ih]
  | interval s start stop _ _ => rw [Expr.trim, render, render]
  | property | literal | geometry | geometries | operator => rw [Expr.trim]

end Sql

open Sql

/-- A filter with a forbidden node among the parts that its functions take is rejected. The
arguments beyond them are never looked at: without a limit on its depth, a filter is compiled as the
one without them. -/
theorem compileExpr_forbidden (e : Expr) (c : Collection) (options : Options) :
    (∀ n, e.trim.Contains n → n.Forbidden c → ∃ r, compileExpr e c options = .error r) ∧
      (options.maxDepth = none → compileExpr e c options = compileExpr e.trim c options) := by
  constructor
  · intro n hn hf
    cases h : compileExpr e c options with
    | error r => exact ⟨r, rfl⟩
    | ok f => exact absurd hf (Expr.not_forbidden_of_contains_trim (compileExpr_ok h).1 hn)
  · intro hd
    simp only [compileExpr, hd, Option.filter_none, Draft.render_eq_write, Draft.empty, render_trim]

def geometryIntersects (args : List Expr) : Expr :=
  .call .zero (.spatial .intersects) (.property .zero "geometry" :: args)

def nullInterval : Expr := .interval .zero (.literal .zero .null) (.literal .zero .null)

/-- An interval in a group, among the arguments of a function behind a negation. -/
theorem compileExpr_forbidden_nested :
    (Expr.unary .zero .not (geometryIntersects
      [.group .zero nullInterval, .operator .zero "and"])).trim.Contains nullInterval ∧
    (∃ r, compileExpr (.unary .zero .not (geometryIntersects
      [.group .zero nullInterval, .operator .zero "and"]))
        (Collection.new "lakes" ["geometry"] "geom") {} = .error r) ∧
    compileExpr (.unary .zero .not (geometryIntersects
      [.group .zero nullInterval, .operator .zero "and"]))
        (Collection.new "lakes" ["geometry"] "geom") {} =
      compileExpr (.unary .zero .not (geometryIntersects [.group .zero nullInterval]))
        (Collection.new "lakes" ["geometry"] "geom") {} := by
  have hn : (Expr.unary .zero .not (geometryIntersects
      [.group .zero nullInterval, .operator .zero "and"])).trim.Contains nullInterval :=
    .part (.head _) (.part (.tail _ (.head _)) (.part (.head _) .self))
  obtain ⟨hfails, htrim⟩ := compileExpr_forbidden
    (.unary .zero .not (geometryIntersects [.group .zero nullInterval, .operator .zero "and"]))
    (Collection.new "lakes" ["geometry"] "geom") {}
  exact ⟨hn, hfails _ hn trivial, htrim rfl⟩

/-- A forbidden node of each kind, where the owner is not queryable. -/
def forbiddenNodes : List Expr :=
  [nullInterval, .operator .zero "and",
    .binary .zero (.arithmetic .add) (.literal .zero .null) (.literal .zero .null),
    .call .zero (.other "upper") [], .property .zero "owner"]

/-- Behind the second argument of a function of geometries they go unnoticed. -/
theorem compileExpr_forbidden_not_taken :
    (∀ n ∈ forbiddenNodes,
      (geometryIntersects (.property .zero "geometry" :: forbiddenNodes)).Contains n ∧
        n.Forbidden (Collection.new "lakes" ["geometry"] "geom")) ∧
    compileExpr (geometryIntersects (.property .zero "geometry" :: forbiddenNodes))
      (Collection.new "lakes" ["geometry"] "geom") {} =
        .ok ⟨"(ST_Intersects(\"geom\", \"geom\"))", []⟩ := by
  refine ⟨fun n hn => ⟨.part (.tail _ (.tail _ hn)) .self, ?_⟩, rfl⟩
  simp only [forbiddenNodes, List.mem_cons, List.not_mem_nil, or_false] at hn
  rcases hn with rfl | rfl | rfl | rfl | rfl
  · trivial
  · trivial
  · exact ⟨_, rfl⟩
  · exact ⟨_, rfl⟩
  · exact show "owner" ∉ ["geometry"] by decide

end FeatureFilter
