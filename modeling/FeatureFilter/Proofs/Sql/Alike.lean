import FeatureFilter.Proofs.Sql.Rendering

namespace FeatureFilter

/-- A truth value is alike only to itself, any other literal to all with the name of its type. -/
def Literal.Alike : Literal → Literal → Prop
  | .boolean a, b => b = .boolean a
  | a, b => b.typeName = a.typeName

namespace Expr

mutual

/-- Filters with the same nodes, operators, names and flags at the same places. Spans are free,
literals are alike, and any geometry may stand for another. -/
inductive Alike : Expr → Expr → Prop
  | binary : Alike left left' → Alike right right' →
    Alike (.binary s op left right) (.binary s' op left' right')
  | call : AlikeEach args args' → Alike (.call s name args) (.call s' name args')
  | advanced : AlikeEach args args' →
    Alike (.advanced s op negated args) (.advanced s' op negated args')
  | property : Alike (.property s name) (.property s' name)
  | literal : value.Alike value' → Alike (.literal s value) (.literal s' value')
  | geometry : Alike (.geometry s value) (.geometry s' value')
  | geometries : Alike (.geometries s members) (.geometries s' members')
  | box : AlikeEach items items' → Alike (.box s items) (.box s' items')
  | unary (op : UnaryOp) : Alike operand operand' →
    Alike (.unary s op operand) (.unary s' op operand')
  | group : Alike operand operand' → Alike (.group s operand) (.group s' operand')
  | array : AlikeEach items items' → Alike (.array s items) (.array s' items')
  | isNull : Alike operand operand' →
    Alike (.isNull s negated operand) (.isNull s' negated operand')
  | interval : Alike start start' → Alike stop stop' →
    Alike (.interval s start stop) (.interval s' start' stop')
  | operator : Alike (.operator s token) (.operator s' token)

inductive AlikeEach : List Expr → List Expr → Prop
  | nil : AlikeEach [] []
  | cons : Alike e e' → AlikeEach es es' → AlikeEach (e :: es) (e' :: es')

end

mutual

theorem Alike.depth_eq : Alike e e' → e.depth = e'.depth
  | .binary hl hr => by rw [depth, depth, hl.depth_eq, hr.depth_eq]
  | .call h | .advanced h | .box h | .array h => by rw [depth, depth, h.depthEach_eq]
  | .unary _ h | .group h | .isNull h => by rw [depth, depth, h.depth_eq]
  | .interval hs ht => by rw [depth, depth, hs.depth_eq, ht.depth_eq]
  | .property | .literal _ | .geometry | .geometries | .operator => by rw [depth, depth]

theorem AlikeEach.depthEach_eq : AlikeEach es es' → depthEach es = depthEach es'
  | .nil => rfl
  | .cons h hs => by rw [depthEach, depthEach, h.depth_eq, hs.depthEach_eq]

end

theorem AlikeEach.length_eq : AlikeEach es es' → es.length = es'.length
  | .nil => rfl
  | .cons _ h => by rw [List.length_cons, List.length_cons, h.length_eq]

theorem Alike.isProperty_eq (h : Alike e e') : e.isProperty = e'.isProperty := by
  cases h <;> rfl

end Expr

theorem Literal.Alike.typeName_eq (h : Literal.Alike a b) : b.typeName = a.typeName := by
  cases a with
  | boolean t =>
    have hb : b = .boolean t := h
    rw [hb]
  | null | integer | number | string | timestamp | date => exact h

theorem Literal.isNumeric_iff (l : Literal) : l.isNumeric = true ↔ l.typeName = "number" := by
  cases l <;> simp [Literal.isNumeric, Literal.toBinary64?, Literal.typeName]

theorem Literal.Alike.isNumeric_eq (h : Literal.Alike a b) : a.isNumeric = b.isNumeric := by
  rw [Bool.eq_iff_iff, Literal.isNumeric_iff, Literal.isNumeric_iff, h.typeName_eq]

theorem Literal.Alike.outline_eq (h : Literal.Alike a b) :
    Sql.Outline.ofLiteral a = Sql.Outline.ofLiteral b := by
  cases a with
  | boolean t =>
    have hb : b = .boolean t := h
    rw [hb]
  | null => cases b <;> first | rfl | simp [Literal.Alike, Literal.typeName] at h
  | integer | number | string | timestamp | date =>
    cases b <;> first | rfl | simp [Literal.Alike, Literal.typeName] at h

namespace Expr

open Sql

theorem Alike.isNumeric_eq : Alike e e' → isNumeric e = isNumeric e'
  | .literal h => h.isNumeric_eq
  | .unary .minus h => h.isNumeric_eq
  | .unary .not _ => rfl
  | .binary .. | .call _ | .advanced _ | .property | .geometry | .geometries | .box _ | .group _
  | .array _ | .isNull _ | .interval .. | .operator => rfl

theorem Alike.foundInBox_eq (h : Alike e e') : foundInBox e = foundInBox e' := by
  cases h with
  | literal h => exact h.typeName_eq.symm
  | _ => rfl

theorem AlikeEach.find?_eq (h : AlikeEach es es') :
    (es.find? (!isNumeric ·)).map foundInBox = (es'.find? (!isNumeric ·)).map foundInBox :=
  match h with
  | .nil => rfl
  | .cons h hs => by
    rw [List.find?_cons, List.find?_cons, h.isNumeric_eq]
    split
    · rw [Option.map_some, Option.map_some, h.foundInBox_eq]
    · exact hs.find?_eq

theorem AlikeEach.ofBox_eq (h : AlikeEach items items') (os : List Outline) :
    Outline.ofBox items os = Outline.ofBox items' os := by
  have hf := h.find?_eq
  unfold Outline.ofBox
  rw [h.length_eq]
  split
  · cases hi : items.find? (!isNumeric ·) with
    | none =>
      rw [hi, Option.map_none] at hf
      rw [Option.map_eq_none_iff.1 hf.symm]
    | some e =>
      rw [hi, Option.map_some] at hf
      obtain ⟨e', he', hfound⟩ := Option.map_eq_some_iff.1 hf.symm
      rw [he']
      simp only [hfound]
  · rfl

theorem ofSpatial_eq (op : SpatialOp) (hl : Alike left left') (hr : Alike right right')
    (o p : Outline) :
    Outline.ofSpatial op left right o p = Outline.ofSpatial op left' right' o p := by
  rw [Outline.ofSpatial, Outline.ofSpatial, hl.isProperty_eq, hr.isProperty_eq]

theorem AlikeEach.ofCall_eq (h : AlikeEach args args') (name : FunctionName) (os : List Outline) :
    Outline.ofCall name args os = Outline.ofCall name args' os := by
  have hlen := h.length_eq
  cases name with
  | other name => rfl
  | distanceWithin => simp only [Outline.ofCall, hlen]
  | spatial op =>
    match h, os with
    | .nil, _ => rfl
    | .cons _ .nil, _ => rfl
    | .cons _ (.cons _ _), [] => simp only [Outline.ofCall, hlen]
    | .cons _ (.cons _ _), [_] => simp only [Outline.ofCall, hlen]
    | .cons hl (.cons hr _), o :: p :: _ => exact ofSpatial_eq op hl hr o p

mutual

/-- Alike filters have one normal form. -/
theorem Alike.outline_eq (c : Collection) : Alike e e' → e.outline c = e'.outline c
  | .binary hl hr => by
    simp only [outline, hl.outline_eq c, hr.outline_eq c, ofSpatial_eq _ hl hr]
  | .call h => by rw [outline, outline, h.outlineEach_eq c, h.ofCall_eq]
  | .advanced h => by rw [outline, outline, h.outlineEach_eq c]
  | .property => by rw [outline, outline]
  | .literal h => by rw [outline, outline, h.outline_eq]
  | .geometry | .geometries => by rw [outline, outline]
  | .box h => by rw [outline, outline, h.outlineEach_eq c, h.ofBox_eq]
  | .unary .not h | .unary .minus h => by rw [outline, outline, h.outline_eq c]
  | .group h | .isNull h => by rw [outline, outline, h.outline_eq c]
  | .array h => by rw [outline, outline, h.outlineEach_eq c]
  | .interval _ _ | .operator => by rw [outline, outline]

theorem AlikeEach.outlineEach_eq (c : Collection) :
    AlikeEach es es' → outlineEach c es = outlineEach c es'
  | .nil => rfl
  | .cons h hs => by rw [outlineEach, outlineEach, h.outline_eq c, hs.outlineEach_eq c]

end

end Expr

open Sql

/-- The values in a filter decide neither the text of its predicate nor its rejection: alike filters
are compiled to the same text with as many parameters, or rejected for the same reason. -/
theorem compileExpr_alike (h : Expr.Alike e e') (c : Collection) (options : Options) :
    (∃ f f', compileExpr e c options = .ok f ∧ compileExpr e' c options = .ok f' ∧
      f.sql = f'.sql ∧ f.params.length = f'.params.length) ∨
    ∃ r, compileExpr e c options = .error r ∧ compileExpr e' c options = .error r := by
  have he := h.outline_eq c
  rw [compileExpr_eq, compileExpr_eq, h.depth_eq, he]
  split
  · exact .inr ⟨_, rfl, rfl⟩
  · exact .inr ⟨_, rfl, rfl⟩
  · rename_i hr
    have hr' := List.head?_eq_none_iff.1 hr
    refine .inl ⟨_, _, rfl, rfl, rfl, ?_⟩
    change (render c e).values.length = (render c e').values.length
    rw [Script.length_values, Script.length_values, render_marks hr', render_marks (he ▸ hr'), he]

def nameIsOneOf (s : Text.Span) (first second : Literal) : Expr :=
  .advanced s .isIn false [.property s "name", .literal s first, .literal s second]

theorem compileExpr_alike_nameIsOneOf :
    Expr.Alike (nameIsOneOf .zero (.string "Baikal") (.integer 1))
      (nameIsOneOf ⟨7, 9, 1, 8⟩ (.string "') OR TRUE --") (.number (.zero true))) ∧
    ∃ f f',
      compileExpr (nameIsOneOf .zero (.string "Baikal") (.integer 1))
        ((Collection.new "lakes" ["name"] "geom").withProperty "name" "lake_name") {} = .ok f ∧
      compileExpr (nameIsOneOf ⟨7, 9, 1, 8⟩ (.string "') OR TRUE --") (.number (.zero true)))
        ((Collection.new "lakes" ["name"] "geom").withProperty "name" "lake_name") {} = .ok f' ∧
      f.sql = f'.sql ∧ f.params.length = f'.params.length := by
  have h : Expr.Alike (nameIsOneOf .zero (.string "Baikal") (.integer 1))
      (nameIsOneOf ⟨7, 9, 1, 8⟩ (.string "') OR TRUE --") (.number (.zero true))) :=
    .advanced (.cons .property (.cons (.literal rfl) (.cons (.literal rfl) .nil)))
  refine ⟨h, (compileExpr_alike h _ _).resolve_right ?_⟩
  rintro ⟨r, hr, _⟩
  cases hr

end FeatureFilter
