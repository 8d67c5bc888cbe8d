import FeatureFilter.Proofs.Filter.BareNames
import FeatureFilter.Proofs.Sql.OuterParentheses
import FeatureFilter.Proofs.Sql.Placeless

namespace FeatureFilter

open Grammar Sql

theorem text_equals (k : Nat) (column : String) (o : Outline) :
    String.ofList (text k (Outline.binary (.comparison .equal) (.column column) o).enclosed) =
      "(" ++ quoteColumn column ++ " = " ++ .ofList (text k o.marks) ++ ")" := by
  rw [← String.toList_inj]
  simp [Outline.enclosed, Outline.isParenthesized, Outline.marks, text_parenthesized, text,
    Connective.token, Token.text, ComparisonOp.name]

theorem compileExpr_equals {column : String} (hc : c.resolve name = .ok column)
    (hr : (Expr.outline c e).rejections = [])
    (hdepth : options.Admits (.binary .zero (.comparison .equal) (.property .zero name) e)) :
    compileExpr (.binary .zero (.comparison .equal) (.property .zero name) e) c options =
      .ok ⟨"(" ++ quoteColumn column ++ " = " ++
        .ofList (text options.paramOffset (e.outline c).marks) ++ ")", (render c e).values⟩ := by
  have houtline : (Expr.binary .zero (.comparison .equal) (.property .zero name) e).outline c =
      .binary (.comparison .equal) (.column column) (e.outline c) := by
    simp only [Expr.outline, hc]
  have hscript : render c (.binary .zero (.comparison .equal) (.property .zero name) e) =
      .parens (.write [.column column] ++ .tokens [.comparison .equal] ++ render c e) := by
    simp only [render, operatorToken?, Sql.column, hc]
  have hrejection : (Script.write [.column column] ++ .tokens [.comparison .equal] ++
      render c e).rejection = none := by
    rw [Script.append_of_none rfl, render_rejection, hr]
    rfl
  rw [compileExpr_of_admits (by rw [houtline]; exact hr) hdepth, houtline, hscript, text_equals,
    Script.values_parens hrejection, Script.values_join rfl]
  rfl

theorem compile_equals (hname : NameText name w) (ht : OperandText t.toList e)
    (hlanguage : options.language = .text) (c : Collection) :
    compile (w ++ " = " ++ t) c options =
      compileExpr (.binary .zero (.comparison .equal) (.property .zero name) e) c options := by
  obtain ⟨e', he, hplace⟩ := ofText_equals hname ht
  have hread : Expr.read options.language (w ++ " = " ++ t) = .ok e' := by
    rw [hlanguage]
    exact he
  rw [compile, hread, ← hplace, compileExpr_unplaced]

theorem Sql.Outline.ofLiteral_of_bind (h : literal l = .bind v) : ofLiteral l = .hole := by
  cases l with
  | null | boolean => cases h
  | integer | number | string | timestamp | date => rfl

/-- A literal behind the sign of equality binds its value. -/
theorem compile_equals_literal {column name w t : String} {c : Collection} {options : Options}
    {v : Value} (hname : NameText name w) (hc : c.resolve name = .ok column)
    (hlanguage : options.language = .text)
    (hdepth : ∀ limit, options.maxDepth = some limit → 2 ≤ limit)
    (ht : OperandText t.toList (.literal .zero l)) (hv : literal l = .bind v) :
    compile (w ++ " = " ++ t) c options =
      .ok ⟨"(" ++ quoteColumn column ++ " = " ++ placeholder options.paramOffset ++ ")", [v]⟩ := by
  have houtline : (Expr.literal .zero l).outline c = .hole := Outline.ofLiteral_of_bind hv
  have hvalues : (render c (.literal .zero l)).values = [v] := by
    rw [render, hv]
    rfl
  rw [compile_equals hname ht hlanguage, compileExpr_equals hc, houtline, hvalues]
  · simp [Outline.marks, text]
  · rw [houtline]
    rfl
  · exact hdepth

end FeatureFilter
