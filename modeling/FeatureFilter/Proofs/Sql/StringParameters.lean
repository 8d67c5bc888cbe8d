import FeatureFilter.Proofs.Sql.Comparisons

namespace FeatureFilter

open Grammar Sql

/-- Wherever the text stands in front of the rest, the rule takes the text as one token. -/
def Lexes (r : Rule) (lexeme rest : List Char) : Prop :=
  ∀ (depth : Nat) (c : Cursor) (a : Attempts Rule), c.rest = lexeme ++ rest →
    cql2.call (depth + 1) r c a = ⟨a, some (c.moveTo lexeme rest,
      [.token r (.between c.position (c.moveTo lexeme rest).position) lexeme])⟩

theorem Lexes.of_scan (hr : cql2.define r = .token p)
    (hs : p.scan (lexeme ++ rest) = some (lexeme, rest)) : Lexes r lexeme rest := by
  intro depth c a hc
  simp only [RuleSet.call, hr, hc, hs]

/-- A written string is taken as a whole in front of anything but a quote, and its value is the
string. A property that is compared with it binds the string and nothing else. -/
theorem Literal.string_readback (s : String) :
    (∀ rest : List Char, rest.head? ≠ some '\'' →
      Lexes .stringLiteral (Literal.string s).write.toList rest) ∧
    OfText.stringValue (Literal.string s).write.toList = s ∧
    ∀ {p w column : String} {c : Collection} {options : Options}, NameText p w →
      c.Holds p column → Text.isBlank column = false → options.language = .text →
      (∀ limit, options.maxDepth = some limit → 2 ≤ limit) →
        compile (w ++ " = " ++ (Literal.string s).write) c options =
          .ok ⟨"(" ++ quoteColumn column ++ " = " ++ placeholder options.paramOffset ++ ")",
            [.text s]⟩ := by
  refine ⟨fun rest hrest => ?_, ?_, ?_⟩
  · rw [toList_write_string]
    exact .of_scan rfl (Pattern.scan_string s.toList hrest)
  · rw [toList_write_string, stringValue_quote, String.ofList_toList]
  · intro p w column c options hname hp hcolumn hlanguage hdepth
    have hc : c.resolve p = .ok column := (c.resolve_eq_ok_iff p column).2 ⟨hp, hcolumn⟩
    exact compile_equals_literal hname hc hlanguage hdepth (.string s) rfl

/-- A string that starts and ends with quotes, with another string behind it and as an operand. -/
theorem Literal.string_readback_quotes :
    (Literal.string "''it's'").write = "'''''it''s'''" ∧
    Lexes .stringLiteral "'''''it''s'''".toList " <> ''''".toList ∧
    compile ("name" ++ " = " ++ "'''''it''s'''")
      ((Collection.new "lakes" ["name"] "geom").withProperty "name" "label") {} =
        .ok ⟨"(\"label\" = $1)", [.text "''it's'"]⟩ := by
  have hwrite : (Literal.string "''it's'").write = "'''''it''s'''" := rfl
  obtain ⟨hlexes, -, hcompile⟩ := Literal.string_readback "''it's'"
  rw [hwrite] at hlexes hcompile
  have hname : NameText "name" "name" := .bare ⟨⟨'n', "ame".toList, rfl, rfl, rfl⟩, by decide⟩
  have hp : ((Collection.new "lakes" ["name"] "geom").withProperty "name" "label").Holds "name"
      "label" := ⟨List.mem_cons_self, rfl⟩
  have hdepth : ∀ limit, ({} : Options).maxDepth = some limit → 2 ≤ limit := by
    intro limit h
    cases h
  exact ⟨hwrite, hlexes _ (by decide), hcompile hname hp rfl rfl hdepth⟩

end FeatureFilter
