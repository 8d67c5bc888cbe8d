import FeatureFilter.Proofs.Filter.Precedence
import FeatureFilter.Proofs.Filter.Changes

namespace FeatureFilter

open Grammar
open Grammar.ParseTree (Within)
open Text (Span)

namespace OfText

/-- The tree of a string called a timestamp or a date that is not one, and the error that says
so. -/
inductive BadInstant : ParseTree Rule → ReadError → Prop
  | timestamp : Time.Instant.ofString? (stringValue lexeme) = none →
    BadInstant (.node .timestampLiteral s [k, .token .stringLiteral s' lexeme])
      ⟨.invalidTimestamp (stringValue lexeme), s.line, s.column⟩
  | date : Time.Date.ofString? (stringValue lexeme) = none →
    BadInstant (.node .dateLiteral s [k, .token .stringLiteral s' lexeme])
      ⟨.invalidDate (stringValue lexeme), s.line, s.column⟩

/-- Nothing but such a tree in one of these makes it fail. -/
def FailsIn (ts : List (ParseTree Rule)) (x : Result α) : Prop :=
  ∀ e, x = .error e → ∃ t ∈ ts, ∃ u, Within u t ∧ BadInstant u e

namespace FailsIn

theorem ok (ts : List (ParseTree Rule)) (a : α) : FailsIn ts (.ok a) := by
  intro e h
  cases h

theorem bind {x : Result α} {f : α → Result β} (hx : FailsIn ts x) (hf : ∀ a, FailsIn ts (f a)) :
    FailsIn ts (x >>= f) := by
  cases x with
  | ok a => exact hf a
  | error e =>
    intro e' h
    cases h
    exact hx e rfl

theorem mono {x : Result α} (h : FailsIn ts x) (hsub : ∀ t ∈ ts, t ∈ us) : FailsIn us x := by
  intro e he
  obtain ⟨t, ht, hbad⟩ := h e he
  exact ⟨t, hsub t ht, hbad⟩

theorem sole {x : Result α} (h : FailsIn [t] x) (ht : t ∈ ts) : FailsIn ts x := by
  apply h.mono
  intro u hu
  cases List.mem_singleton.1 hu
  exact ht

theorem node {x : Result α} (h : FailsIn ts x) : FailsIn [.node r s ts] x := by
  intro e he
  obtain ⟨t, ht, u, hu, hbad⟩ := h e he
  exact ⟨_, List.mem_cons_self, u, .part ht hu, hbad⟩

end FailsIn

end OfText
end FeatureFilter
