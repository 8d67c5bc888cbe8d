import FeatureFilter.Proofs.Filter.Failures
import FeatureFilter.Proofs.Filter.Quoting
import FeatureFilter.Proofs.Filter.Wrapping
import FeatureFilter.Proofs.Grammar.Visits

namespace FeatureFilter

open Grammar
open Grammar.ParseTree (Within)
open Text (Position Span)

/-- A text that the grammar takes as a filter. -/
def InGrammar (text : List Char) : Prop :=
  ∃ m, Derives cql2 (.phrase (.rule .filter)) (.ofText text) (some m)

theorem exists_syntaxError (h : ¬ InGrammar text.toList) :
    ∃ rules p, Expr.ofText text = .error ⟨.unexpected rules, p.line, p.column⟩ ∧
      PlaceOf text.toList p := by
  have hplace := cql2.placeOf_parse .filter text.toList
  have hderives := (RuleSet.parse_eq_iff cql2_ranked .filter text.toList).1 rfl
  rw [Expr.ofText]
  cases hp : cql2.parse .filter text.toList with
  | mk a result =>
    rw [hp] at hplace hderives
    cases result with
    | none => exact ⟨_, a.position, rfl, hplace⟩
    | some m => exact absurd ⟨m, hderives⟩ h

end FeatureFilter
