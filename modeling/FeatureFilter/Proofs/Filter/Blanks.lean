import FeatureFilter.Proofs.Filter.Wrapping
import FeatureFilter.Proofs.Grammar.Tidying

namespace FeatureFilter

open Grammar

theorem toOption_ofText (h : Derives cql2 (.phrase (.rule .expression))
    (Cursor.ofText text.toList).skipBlanks (some (d, [t]))) :
    (Expr.ofText text).toOption =
      if d.skipBlanks.rest = [] then (OfText.expr t).toOption else none := by
  split
  · rename_i hd
    rw [ofText_of_derives h hd]
  · rename_i hd
    cases he : Expr.ofText text with
    | error => rfl
    | ok e =>
      obtain ⟨d', t', h', hd', -⟩ := derives_of_ofText he
      cases h.unique h'
      exact absurd hd' hd

theorem toOption_ofText_of_none (h : Derives cql2 (.phrase (.rule .expression))
    (Cursor.ofText text.toList).skipBlanks none) : (Expr.ofText text).toOption = none := by
  cases he : Expr.ofText text with
  | error => rfl
  | ok e =>
    obtain ⟨d', t', h', -⟩ := derives_of_ofText he
    cases h.unique h'

/-- Where an expression may start in a tidied text. -/
theorem rest_skipBlanks_tidy (cs : List Char) :
    (Cursor.ofText (tidy cs)).skipBlanks.rest =
      tidyFrom none (Cursor.ofText cs).skipBlanks.rest := by
  have hskip : (cs.dropWhile isBlank).dropWhile isBlank = cs.dropWhile isBlank :=
    congrArg Cursor.rest (Cursor.skipBlanks_skipBlanks (.ofText cs))
  show (tidy cs).dropWhile isBlank = tidyFrom none (cs.dropWhile isBlank)
  rw [tidy, ← tidyFrom_dropWhile, hskip]

/-- A text and its tidied form are read as the same filter, places apart, or both are not read. -/
theorem Expr.ofText_tidy (text : String) :
    (Expr.ofText (.ofList (tidy text.toList))).toOption.map Expr.unplaced =
      (Expr.ofText text).toOption.map Expr.unplaced := by
  obtain ⟨o, h⟩ := RuleSet.exists_derives cql2_ranked .expression
    (Cursor.ofText text.toList).skipBlanks
  have hrest : (Cursor.ofText (String.ofList (tidy text.toList)).toList).skipBlanks.rest =
      tidyFrom none (Cursor.ofText text.toList).skipBlanks.rest := by
    rw [String.toList_ofList, rest_skipBlanks_tidy]
  obtain ⟨o', h', hcarried⟩ := h.simulate (simulates_spaced cql2_spaced) rfl hrest
  cases o with
  | none =>
    cases hcarried
    rw [toOption_ofText_of_none h, toOption_ofText_of_none h']
  | some m =>
    obtain ⟨d, ts⟩ := m
    obtain ⟨d', ts', rfl, hd, htrees⟩ := hcarried
    obtain ⟨t, rfl⟩ := h.exists_tree
    obtain ⟨t', rfl⟩ := h'.exists_tree
    have hend : d'.skipBlanks.rest = [] ↔ d.skipBlanks.rest = [] := by
      rw [(simulates_spaced cql2_spaced).rest_skipBlanks hd]
      constructor
      · exact dropWhile_eq_nil_of_tidyFrom
      · intro hnil
        rw [hnil]
        rfl
    rw [toOption_ofText h, toOption_ofText h']
    simp only [hend]
    split
    · rw [← OfText.expr_unplaced, ← OfText.expr_unplaced, (List.cons.inj htrees).1]
    · rfl

end FeatureFilter
