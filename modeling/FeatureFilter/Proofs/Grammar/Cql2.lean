import FeatureFilter.Grammar.Cql2
import FeatureFilter.Proofs.Grammar.Adequacy
import FeatureFilter.Proofs.Grammar.Brackets

namespace FeatureFilter.Grammar

def primaryRules : List Rule :=
  [.geometryLiteral, .bbox, .interval, .timestampLiteral, .dateLiteral, .booleanLiteral,
    .nullLiteral, .functionCall, .numberLiteral, .stringLiteral, .parenthesized, .property]

def tailRules : List Rule :=
  [.comparisonTail, .spatialTail, .likeTail, .betweenTail, .inTail, .isNullTail]

def boundRules : List Rule := [.timestampLiteral, .dateLiteral, .stringLiteral, .property]

def geometryRules : List Rule :=
  [.pointText, .lineStringText, .polygonText, .multiPointText, .multiLineStringText,
    .multiPolygonText, .geometryCollectionText]

theorem derives_anyOf {rules : List Rule}
    (hmiss : ∀ r ∈ rules, Derives cql2 (.phrase (.rule r)) c none)
    (h : Derives cql2 (.phrase x) c (some m)) (others : List (Phrase Rule)) :
    Derives cql2 (.phrase (.anyOf (rules.map .rule ++ x :: others))) c (some m) := by
  induction rules with
  | nil =>
    cases others with
    | nil => exact h
    | cons => exact .choiceLeft h
  | cons r rules ih =>
    obtain ⟨hr, hrules⟩ := List.forall_mem_cons.1 hmiss
    have hrest := ih hrules
    cases rules with
    | nil | cons => exact .choiceRight hr hrest

theorem derives_anyOf_of_getElem? {rules : List Rule} (n : Nat) (hn : rules[n]? = some r)
    (hmiss : ∀ q ∈ rules.take n, Derives cql2 (.phrase (.rule q)) c none)
    (h : Derives cql2 (.phrase (.rule r)) c (some m)) :
    Derives cql2 (.phrase (.anyOf (rules.map .rule))) c (some m) := by
  have hany := derives_anyOf hmiss h ((rules.drop (n + 1)).map .rule)
  have hsplit : rules.take n ++ r :: rules.drop (n + 1) = rules := by
    obtain ⟨hlt, rfl⟩ := List.getElem?_eq_some_iff.1 hn
    rw [← List.drop_eq_getElem_cons hlt, List.take_append_drop]
  rwa [← List.map_cons, ← List.map_append, hsplit] at hany

theorem derives_anyOf_none {rules : List Rule} (hne : rules ≠ [])
    (h : ∀ r ∈ rules, Derives cql2 (.phrase (.rule r)) c none) :
    Derives cql2 (.phrase (.anyOf (rules.map .rule))) c none := by
  induction rules with
  | nil => exact absurd rfl hne
  | cons r rules ih =>
    obtain ⟨hr, hrules⟩ := List.forall_mem_cons.1 h
    cases rules with
    | nil => exact hr
    | cons q rules => exact .choiceRight hr (ih (List.cons_ne_nil q rules) hrules)

/-- A rule is above those that it may try where it starts. -/
def Rule.rank : Rule → Nat
  | .filter => 11
  | .expression => 10
  | .disjunction => 9
  | .conjunction => 8
  | .negation => 7
  | .predicate => 6
  | .additive => 5
  | .multiplicative => 4
  | .unary => 3
  | .geometryLiteral => 2
  | r =>
    match r.definition with
    | .phrase _ => 1
    | .token _ => 0

theorem cql2_ranked : cql2.Ranked (· == .endOfText) Rule.rank where
  rank_le r := by cases r <;> decide
  token r p h he := by cases r <;> cases h <;> rfl
  phrase r e h := by cases r <;> cases h <;> decide

def Rule.isInner (r : Rule) : Bool := r != .filter && r != .endOfText

theorem Pattern.framed_string : string.Framed none :=
  (((framed_doubled (.inl rfl)).choice (framed_except _)).many rfl).quoted (.inl rfl)

theorem Pattern.framed_quotedIdentifier : quotedIdentifier.Framed none :=
  ((framed_except _).seq ((framed_except _).many rfl)).quoted (.inr rfl)

theorem cql2_bracketed : cql2.Bracketed Rule.isInner where
  token r p hr h := by
    cases r with
    | stringLiteral =>
      cases h
      exact Pattern.framed_string
    | quotedIdentifier =>
      cases h
      exact Pattern.framed_quotedIdentifier
    | _ =>
      cases h <;> exact Pattern.framed_of_plain (by decide)
  phrase r e hr h := by
    cases r with
    | filter | endOfText => cases hr
    | _ => cases h <;> rfl

end FeatureFilter.Grammar
