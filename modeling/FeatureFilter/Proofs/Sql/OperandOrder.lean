import FeatureFilter.Proofs.Sql.OuterParentheses
import FeatureFilter.Proofs.Sql.Readback

namespace FeatureFilter

namespace Sql

/-- What the functions of two geometries test, and what their arguments stand for. -/
structure Interpretation (γ : Type) where
  /-- The relation that the function of a name tests. -/
  relation : String → γ → γ → Prop
  /-- The geometry of a written argument with the values of its placeholders. -/
  argument : Outline → List Value → γ

namespace Interpretation

structure Lawful (I : Interpretation γ) : Prop where
  converse : ∀ a b, I.relation "ST_Within" a b ↔ I.relation "ST_Contains" b a
  symmetric : ∀ op, op ≠ .within → op ≠ .contains → ∀ a b,
    I.relation (spatialFunction op) a b ↔ I.relation (spatialFunction op) b a

def operand (I : Interpretation γ) (c : Collection) (e : Expr) : γ :=
  I.argument (e.outline c) (render c e).values

/-- A fragment whose text is a call of a function, and what it says of the arguments: the first
parameters are those of the first one. -/
def Holds (I : Interpretation γ) (k : Nat) (f : Fragment) : Prop :=
  ∃ op first second values values',
    Outline.rejections first = [] ∧ Outline.rejections second = [] ∧
    f.sql = "(" ++ spatialFunction op ++ "(" ++ .ofList (text k first.marks) ++ ", " ++
      .ofList (text (k + holes first.marks) second.marks) ++ "))" ∧
    f.params = values ++ values' ∧ values.length = holes first.marks ∧
    I.relation (spatialFunction op) (I.argument first values) (I.argument second values')

end Interpretation

theorem text_spatial (k : Nat) (op : SpatialOp) (first second : Outline) :
    String.ofList (text k (parenthesized (Outline.spatial op first second).marks)) =
      "(" ++ spatialFunction op ++ "(" ++ .ofList (text k first.marks) ++ ", " ++
        .ofList (text (k + holes first.marks) second.marks) ++ "))" := by
  rw [← String.toList_inj]
  simp [text_parenthesized, Outline.marks, text, text_append, Token.text]

theorem eq_of_text_spatial (hf : Outline.rejections first = [])
    (hs : Outline.rejections second = []) (hf' : Outline.rejections first' = [])
    (hs' : Outline.rejections second' = [])
    (h : text k (parenthesized (Outline.spatial op first second).marks) =
      text k (parenthesized (Outline.spatial op' first' second').marks)) :
    op = op' ∧ first = first' ∧ second = second' := by
  have hmarks := eq_of_text_eq (Outline.spaced_marks _).parenthesized
    (Outline.spaced_marks _).parenthesized h
  have hinside := List.append_cancel_right (List.cons.inj hmarks).2
  have hr : (Outline.spatial op first second).rejections = [] :=
    List.append_eq_nil_iff.2 ⟨hf, hs⟩
  have hr' : (Outline.spatial op' first' second').rejections = [] :=
    List.append_eq_nil_iff.2 ⟨hf', hs'⟩
  exact Outline.spatial.inj (Outline.eq_of_marks_eq hr hr' hinside)

theorem Script.values_call (t : Token) (ha : a.rejection = none) (hb : b.rejection = none) :
    (Script.call t [a, b]).values = a.values ++ b.values := by
  have hargs : (a ++ Script.tokens [.comma] ++ b).rejection = none := by
    rw [Script.append_of_none ha, Script.append_of_none rfl]
    exact hb
  change (Script.tokens [t] ++ Script.parens (a ++ Script.tokens [.comma] ++ b)).values = _
  rw [Script.values_append rfl, Script.values_parens hargs, Script.values_join ha]
  rfl

theorem Interpretation.holds_iff (I : Interpretation γ) (hf : Outline.rejections first = [])
    (hs : Outline.rejections second = []) (hlen : values.length = holes first.marks) :
    I.Holds k ⟨.ofList (text k (parenthesized (Outline.spatial op first second).marks)),
        values ++ values'⟩ ↔
      I.relation (spatialFunction op) (I.argument first values) (I.argument second values') := by
  constructor
  · rintro ⟨op', first', second', vs, vs', hf', hs', hsql, hparams, hlen', hrel⟩
    rw [← text_spatial] at hsql
    obtain ⟨rfl, rfl, rfl⟩ := eq_of_text_spatial hf hs hf' hs' (String.ofList_injective hsql)
    obtain ⟨rfl, rfl⟩ := List.append_inj hparams (hlen.trans hlen'.symm)
    exact hrel
  · intro hrel
    exact ⟨op, first, second, values, values', hf, hs, text_spatial k op first second, rfl, hlen,
      hrel⟩

end Sql

open Sql

/-- The operator that says of two geometries in one order what another one says in the other. -/
def SpatialOp.converse : SpatialOp → SpatialOp
  | .within => .contains
  | .contains => .within
  | op => op

theorem Sql.Interpretation.Lawful.relation_converse {I : Interpretation γ} (h : I.Lawful)
    (op : SpatialOp) (a b : γ) :
    I.relation (spatialFunction op) a b ↔ I.relation (spatialFunction op.converse) b a := by
  cases op with
  | within => exact h.converse a b
  | contains => exact (h.converse b a).symm
  | intersects | disjoint | equals | touches | overlaps | crosses =>
    exact h.symmetric _ (by decide) (by decide) a b

namespace Expr

inductive Relates (op : SpatialOp) (left right : Expr) : Expr → Prop
  | operator : Relates op left right (.binary s (.spatial op) left right)
  | call : Relates op left right (.call s (.spatial op) (left :: right :: rest))

theorem Relates.outline_swapped {e : Expr} (h : Relates op left right e)
    (hl : left.isProperty = false) (hr : right.isProperty = true) (c : Collection) :
    e.outline c = .spatial op (right.outline c) (left.outline c) := by
  have hswap : Outline.ofSpatial op left right (left.outline c) (right.outline c) =
      .spatial op (right.outline c) (left.outline c) := by
    rw [Outline.ofSpatial, hl, hr]
    rfl
  cases h with
  | operator => exact hswap
  | call => exact hswap

theorem Relates.render_swapped {e : Expr} (h : Relates op left right e)
    (hl : left.isProperty = false) (hr : right.isProperty = true) (c : Collection) :
    render c e = .call (.spatial op) [render c right, render c left] := by
  have hswap : Sql.spatial op left right (render c left) (render c right) =
      .call (.spatial op) [render c right, render c left] := by
    rw [Sql.spatial, hl, hr]
    rfl
  cases h with
  | operator => exact hswap
  | call => exact hswap

end Expr

theorem Expr.Relates.compileExpr_swapped {e : Expr} (h : Relates op left right e)
    (hl : left.isProperty = false) (hr : right.isProperty = true)
    (hrl : (left.outline c).rejections = []) (hrr : (right.outline c).rejections = [])
    (hdepth : options.Admits e) :
    compileExpr e c options = .ok ⟨.ofList (text options.paramOffset
        (parenthesized (Outline.spatial op (right.outline c) (left.outline c)).marks)),
      (render c right).values ++ (render c left).values⟩ := by
  have hout := h.outline_swapped hl hr c
  have hrej : (e.outline c).rejections = [] := by
    rw [hout]
    exact List.append_eq_nil_iff.2 ⟨hrr, hrl⟩
  have hright : (render c right).rejection = none := by rw [render_rejection, hrr, List.head?_nil]
  have hleft : (render c left).rejection = none := by rw [render_rejection, hrl, List.head?_nil]
  rw [compileExpr_of_admits hrej hdepth, hout, h.render_swapped hl hr,
    Script.values_call _ hright hleft]
  rfl

theorem Sql.Interpretation.holds_operands (I : Interpretation γ) (k : Nat) (op : SpatialOp)
    (hf : (Expr.outline c first).rejections = []) (hs : (Expr.outline c second).rejections = []) :
    I.Holds k ⟨.ofList (text k (parenthesized
        (Outline.spatial op (first.outline c) (second.outline c)).marks)),
      (render c first).values ++ (render c second).values⟩ ↔
      I.relation (spatialFunction op) (I.operand c first) (I.operand c second) := by
  apply I.holds_iff hf hs
  rw [Script.length_values, render_marks hf]

/-- A property that stands second is written first, under the same function. So the predicate says
what the operator says of the operands in the other order, which is what the converse operator says
of them in the order in which they stand. -/
theorem compileExpr_relates_property {I : Interpretation γ} (hI : I.Lawful)
    (h : Expr.Relates op left right e) (hl : left.isProperty = false)
    (hr : right.isProperty = true) (hleft : (render c left).rejection = none)
    (hright : (render c right).rejection = none) (hdepth : options.Admits e) :
    ∃ f, compileExpr e c options = .ok f ∧
      (I.Holds options.paramOffset f ↔
        I.relation (spatialFunction op) (I.operand c right) (I.operand c left)) ∧
      (I.Holds options.paramOffset f ↔
        I.relation (spatialFunction op.converse) (I.operand c left) (I.operand c right)) := by
  rw [render_rejection, List.head?_eq_none_iff] at hleft hright
  have hholds := I.holds_operands options.paramOffset op hright hleft
  exact ⟨_, h.compileExpr_swapped hl hr hleft hright hdepth, hholds,
    hholds.trans (hI.relation_converse op _ _)⟩

/-- Discs around one point, by their radius. A column holds a disc, and all else is the point. -/
def Sql.Interpretation.concentric : Interpretation Nat where
  relation
    | "ST_Within", a, b => a ≤ b
    | "ST_Contains", a, b => b ≤ a
    | "ST_Equals", a, b => a = b
    | "ST_Intersects", _, _ => True
    | _, _, _ => False
  argument
    | .column _, _ => 1
    | _, _ => 0

theorem Sql.Interpretation.lawful_concentric : concentric.Lawful where
  converse _ _ := Iff.rfl
  symmetric op hw hc a b := by
    cases op with
    | within => exact absurd rfl hw
    | contains => exact absurd rfl hc
    | equals => exact eq_comm
    | intersects | disjoint | touches | overlaps | crosses => exact Iff.rfl

/-- With the operator between a point and a column, to ask whether the point contains the disc of
the column is to ask whether the point lies in it, which it does. -/
theorem compileExpr_relates_property_contains :
    Interpretation.concentric.Lawful ∧
    ∃ f, compileExpr (.binary .zero (.spatial .contains)
        (.geometry .zero (.point ⟨.zero false, .zero false, none⟩)) (.property .zero "geometry"))
        (Collection.new "lakes" ["geometry"] "geom") {} = .ok f ∧
      Interpretation.concentric.Holds 0 f ∧
      (Interpretation.concentric.Holds 0 f ↔ Interpretation.concentric.relation "ST_Within"
        (Interpretation.concentric.operand (Collection.new "lakes" ["geometry"] "geom")
          (.geometry .zero (.point ⟨.zero false, .zero false, none⟩)))
        (Interpretation.concentric.operand (Collection.new "lakes" ["geometry"] "geom")
          (.property .zero "geometry"))) := by
  have hrelates : Expr.Relates .contains
      (.geometry .zero (.point ⟨.zero false, .zero false, none⟩)) (.property .zero "geometry")
      (.binary .zero (.spatial .contains) _ _) := .operator
  have hcolumn : (render (Collection.new "lakes" ["geometry"] "geom")
      (.property .zero "geometry")).rejection = none := rfl
  obtain ⟨f, hf, hswapped, hconverse⟩ := compileExpr_relates_property
    Interpretation.lawful_concentric hrelates rfl rfl rfl hcolumn (Options.admits_default _)
  exact ⟨Interpretation.lawful_concentric, f, hf, hswapped.2 (Nat.zero_le 1), hconverse⟩

/-- The point lies in the disc of the column. The predicate says that the disc lies in the point. -/
theorem compileExpr_relates_property_reversed :
    Interpretation.concentric.Lawful ∧
    compileExpr (.call .zero (.spatial .within)
      [.geometry .zero (.point ⟨.zero false, .zero false, none⟩), .property .zero "geometry"])
      (Collection.new "lakes" ["geometry"] "geom") {} =
        .ok ⟨"(ST_Within(\"geom\", ST_GeomFromText($1, 4326)))", [.text "POINT(0 0)"]⟩ ∧
    Interpretation.concentric.relation "ST_Within"
      (Interpretation.concentric.operand (Collection.new "lakes" ["geometry"] "geom")
        (.geometry .zero (.point ⟨.zero false, .zero false, none⟩)))
      (Interpretation.concentric.operand (Collection.new "lakes" ["geometry"] "geom")
        (.property .zero "geometry")) ∧
    ¬ Interpretation.concentric.Holds 0
      ⟨"(ST_Within(\"geom\", ST_GeomFromText($1, 4326)))", [.text "POINT(0 0)"]⟩ := by
  have hcompile : compileExpr (.call .zero (.spatial .within)
      [.geometry .zero (.point ⟨.zero false, .zero false, none⟩), .property .zero "geometry"])
      (Collection.new "lakes" ["geometry"] "geom") {} =
        .ok ⟨"(ST_Within(\"geom\", ST_GeomFromText($1, 4326)))", [.text "POINT(0 0)"]⟩ := rfl
  refine ⟨Interpretation.lawful_concentric, hcompile, Nat.zero_le 1, ?_⟩
  intro hholds
  have hswapped := Expr.Relates.call.compileExpr_swapped rfl rfl rfl rfl
    (Options.admits_default _) |>.symm.trans hcompile
  rw [← Except.ok.inj hswapped] at hholds
  exact Nat.not_succ_le_zero 0 ((Interpretation.concentric.holds_operands 0 _ rfl rfl).1 hholds)

end FeatureFilter
