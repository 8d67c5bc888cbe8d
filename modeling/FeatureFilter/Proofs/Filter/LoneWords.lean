import FeatureFilter.Proofs.Filter.BareNames
import FeatureFilter.Proofs.Filter.Diagnosis
import FeatureFilter.Proofs.Text.Positions

namespace FeatureFilter

open Grammar
open Text (Position Span)

def Text.Span.whole (text : String) : Span := ⟨0, text.utf8ByteSize, 1, 1⟩

theorem span_between_whole (text : String) :
    Span.between .origin (Position.origin.after text.toList) = .whole text := by
  have hoffset := Position.offset_after .origin text.toList
  rw [String.ofList_toList] at hoffset
  rw [Span.between, hoffset]
  exact congrArg (Span.mk 0 · 1 1) (Nat.zero_add _)

theorem standsApart_nil : StandsApart [] := by
  rintro b ⟨⟩

section Words

variable {w : String}

theorem IsWord.cursor (hw : IsWord w.toList) :
    (Cursor.ofText w.toList).skipBlanks = .ofText w.toList ∧
      (Cursor.ofText w.toList).rest = w.toList ++ [] := by
  obtain ⟨b, bs, hword, hb, -⟩ := hw
  have hblank := isBlank_of_isNameChar (Pattern.isNameChar_of_isNameStart hb)
  refine ⟨Cursor.skipBlanks_eq ?_, (List.append_nil _).symm⟩
  show w.toList.dropWhile isBlank = w.toList
  rw [hword, List.dropWhile_cons_of_neg (Bool.eq_false_iff.1 hblank)]

/-- A word that is an operand of some rule, where those that are tried before it fail. -/
theorem ofText_of_yields (hw : IsWord w.toList) (n : Nat) (hn : primaryRules[n]? = some r)
    (hmiss : ∀ q ∈ .kwNot :: .minus :: primaryRules.take n,
      Derives cql2 (.phrase (.rule q)) (.ofText w.toList) none)
    (h : Yields r (.ofText w.toList) ((Cursor.ofText w.toList).moveTo w.toList []) e) :
    Expr.ofText w = .ok e := by
  obtain ⟨hnot, hmiss⟩ := List.forall_mem_cons.1 hmiss
  have hunary := h.primary n hn hmiss
  rw [← hw.cursor.1] at hunary hnot
  exact hunary.ofText hnot rfl

theorem IsWord.scan_of_lower (hw : IsWord w.toList) (h : Text.lower w = k) :
    (Pattern.keyword k).scan (Cursor.ofText w.toList).rest = some (w.toList, []) := by
  have hlower : w.toList.map Char.toLower = k.toList := by
    rw [← h, Text.lower, String.toList_ofList]
  rw [hw.cursor.2]
  exact Pattern.scan_keyword_of_lower hw.isNameChar standsApart_nil.endsWord hlower

theorem IsWord.scan_of_ne (hw : IsWord w.toList) (hk : k ∈ Pattern.reservedWords)
    (h : Text.lower w ≠ k) : (Pattern.keyword k).scan (Cursor.ofText w.toList).rest = none := by
  apply hw.scan_keyword hw.cursor.2 standsApart_nil.endsWord hk
  intro hlower
  apply h
  rw [Text.lower, hlower, String.ofList_toList]

theorem IsWord.derives_first_none (hw : IsWord w.toList) (h : Text.lower w ≠ "not") :
    ∀ q ∈ .kwNot :: .minus :: primaryRules.take 5,
      Derives cql2 (.phrase (.rule q)) (.ofText w.toList) none := by
  have hmore := hw.derives_none hw.cursor.2 standsApart_nil
  simp only [List.forall_mem_cons] at hmore
  obtain ⟨hminus, hgeometry, hbbox, hinterval, htimestamp, hdate, -⟩ := hmore
  simp only [primaryRules, List.take, List.forall_mem_cons]
  exact ⟨.noToken rfl (hw.scan_of_ne (by decide) h), hminus, hgeometry, hbbox, hinterval,
    htimestamp, hdate, fun _ hq => absurd hq List.not_mem_nil⟩

theorem ofText_true (hw : IsWord w.toList) (h : Text.lower w = "true") :
    Expr.ofText w = .ok (.literal (.whole w) (.boolean true)) := by
  have hmiss := hw.derives_first_none (by rw [h]; decide)
  rw [← span_between_whole]
  exact ofText_of_yields hw 5 rfl hmiss
    ⟨_, .node rfl (.choiceLeft (.token rfl (hw.scan_of_lower h))), rfl⟩

theorem ofText_false (hw : IsWord w.toList) (h : Text.lower w = "false") :
    Expr.ofText w = .ok (.literal (.whole w) (.boolean false)) := by
  have hmiss := hw.derives_first_none (by rw [h]; decide)
  have htrue := hw.scan_of_ne (k := "true") (by decide) (by rw [h]; decide)
  rw [← span_between_whole]
  exact ofText_of_yields hw 5 rfl hmiss
    ⟨_, .node rfl (.choiceRight (.noToken rfl htrue) (.token rfl (hw.scan_of_lower h))), rfl⟩

theorem IsWord.derives_boolean_none (hw : IsWord w.toList)
    (h : Text.lower w ∉ ["true", "false"]) :
    Derives cql2 (.phrase (.rule .booleanLiteral)) (.ofText w.toList) none := by
  simp only [List.mem_cons, List.not_mem_nil, or_false, not_or] at h
  exact .noNode rfl (.choiceRight (.noToken rfl (hw.scan_of_ne (by decide) h.1))
    (.noToken rfl (hw.scan_of_ne (by decide) h.2)))

theorem ofText_null (hw : IsWord w.toList) (h : Text.lower w = "null") :
    Expr.ofText w = .ok (.literal (.whole w) .null) := by
  have hfirst := hw.derives_first_none (by rw [h]; decide)
  have hboolean := hw.derives_boolean_none (by rw [h]; decide)
  have hmiss : ∀ q ∈ .kwNot :: .minus :: primaryRules.take 6,
      Derives cql2 (.phrase (.rule q)) (.ofText w.toList) none :=
    List.forall_mem_append.2 ⟨hfirst, List.forall_mem_singleton.2 hboolean⟩
  rw [← span_between_whole]
  exact ofText_of_yields hw 6 rfl hmiss ⟨_, .node rfl (.token rfl (hw.scan_of_lower h)), rfl⟩

theorem ofText_name (hw : IsWord w.toList) (h : Text.lower w ∉ Pattern.reservedWords) :
    Expr.ofText w = .ok (.property (.whole w) w) := by
  have hname : BareName w.toList := by
    refine ⟨hw, fun r hr hlower => h ?_⟩
    rwa [Text.lower, hlower, String.ofList_toList]
  have hmiss := hname.derives_none hw.cursor.2 standsApart_nil
  have hyields := hname.yields hw.cursor.2 standsApart_nil.endsWord
  rw [String.ofList_toList] at hyields
  rw [← span_between_whole]
  exact ofText_of_yields hw 11 rfl hmiss hyields

/-- The reserved words that are no values. -/
def connectives : List String := ["and", "or", "not", "like", "between", "in", "is"]

theorem IsWord.derives_primary_none (hw : IsWord w.toList) (h : Text.lower w ∈ connectives) :
    ∀ q ∈ .minus :: primaryRules, Derives cql2 (.phrase (.rule q)) (.ofText w.toList) none := by
  have hvalue : Text.lower w ∉ ["true", "false"] ∧ Text.lower w ≠ "null" ∧
      Text.lower w ∈ Pattern.reservedWords := by
    generalize Text.lower w = k at h
    revert k
    decide
  obtain ⟨hboolean, hnull, hreserved⟩ := hvalue
  have hidentifier := Pattern.scan_identifier_of_reserved hreserved (hw.scan_of_lower rfl)
  have hmore := hw.derives_none hw.cursor.2 standsApart_nil
  simp only [List.forall_mem_cons] at hmore
  obtain ⟨hminus, hgeometry, hbbox, hinterval, htimestamp, hdate, hnumber, hstring, hparens, -⟩ :=
    hmore
  simp only [primaryRules, List.forall_mem_cons]
  exact ⟨hminus, hgeometry, hbbox, hinterval, htimestamp, hdate, hw.derives_boolean_none hboolean,
    .noNode rfl (.noToken rfl (hw.scan_of_ne (by decide) hnull)),
    .noNode rfl (.seqLeft (.noToken rfl hidentifier)), hnumber, hstring, hparens,
    .noNode rfl (.choiceRight (hw.derives_quoted_none hw.cursor.2) (.noToken rfl hidentifier)),
    fun _ hq => absurd hq List.not_mem_nil⟩

theorem IsWord.derives_negation_none (hw : IsWord w.toList) (h : Text.lower w ∈ connectives) :
    Derives cql2 (.phrase (.rule .negation)) (.ofText w.toList) none := by
  have hprimary := hw.derives_primary_none h
  by_cases hnot : Text.lower w = "not"
  · -- Behind the negation nothing is left to negate.
    have hend : Stops [[')']] [] := by
      rintro _ ⟨⟩
    have hbehind : Derives cql2 (.phrase (.rule .negation))
        ((Cursor.ofText w.toList).moveTo w.toList []).skipBlanks none :=
      FeatureFilter.derives_negation_none fun q hq => refuses_operand hend q hq _ (.nil [] rfl)
    exact .noNode rfl (.choiceRight (.seqRight (.token rfl (hw.scan_of_lower hnot)) hbehind)
      (derives_predicate_none hprimary))
  · apply FeatureFilter.derives_negation_none
    exact List.forall_mem_cons.2 ⟨.noToken rfl (hw.scan_of_ne (by decide) hnot), hprimary⟩

theorem exists_syntaxError_connective (hw : IsWord w.toList) (h : Text.lower w ∈ connectives) :
    ∃ rules line column, Expr.ofText w = .error ⟨.unexpected rules, line, column⟩ := by
  have hnone : Derives cql2 (.phrase (.rule .filter)) (.ofText w.toList) none := by
    have hexpression := derives_expression_of_negation (hw.derives_negation_none h)
    rw [← hw.cursor.1] at hexpression
    exact .noNode rfl (.seqRight .nothing (.seqLeft hexpression))
  have hgrammar : ¬InGrammar w.toList := by
    rintro ⟨m, hm⟩
    cases hm.unique hnone
  obtain ⟨rules, p, hread, -⟩ := exists_syntaxError hgrammar
  exact ⟨rules, p.line, p.column, hread⟩

end Words

/-- What a word is as a filter. -/
theorem Expr.ofText_word {w : String} (hw : IsWord w.toList) :
    (Text.lower w = "true" → Expr.ofText w = .ok (.literal (.whole w) (.boolean true))) ∧
    (Text.lower w = "false" → Expr.ofText w = .ok (.literal (.whole w) (.boolean false))) ∧
    (Text.lower w = "null" → Expr.ofText w = .ok (.literal (.whole w) .null)) ∧
    (Text.lower w ∈ ["and", "or", "not", "like", "between", "in", "is"] →
      ∃ rules line column, Expr.ofText w = .error ⟨.unexpected rules, line, column⟩) ∧
    (Text.lower w ∉ ["true", "false", "null", "and", "or", "not", "like", "between", "in", "is"] →
      Expr.ofText w = .ok (.property (.whole w) w)) := by
  refine ⟨ofText_true hw, ofText_false hw, ofText_null hw, exists_syntaxError_connective hw, ?_⟩
  intro hfree
  apply ofText_name hw
  intro hreserved
  apply hfree
  generalize Text.lower w = k at hreserved
  revert k
  decide

/-- Words that are reserved in another case, that go on behind a keyword or that start literals. -/
theorem Expr.ofText_word_kinds :
    Expr.ofText "TRUE" = .ok (.literal ⟨0, 4, 1, 1⟩ (.boolean true)) ∧
    Expr.ofText "nUll" = .ok (.literal ⟨0, 4, 1, 1⟩ .null) ∧
    (∃ rules line column, Expr.ofText "Not" = .error ⟨.unexpected rules, line, column⟩) ∧
    Expr.ofText "not.x" = .ok (.property ⟨0, 5, 1, 1⟩ "not.x") ∧
    Expr.ofText "Point" = .ok (.property ⟨0, 5, 1, 1⟩ "Point") ∧
    Expr.ofText "s_within" = .ok (.property ⟨0, 8, 1, 1⟩ "s_within") := by
  have word {b : Char} {bs : List Char} (hb : isNameStart b = true)
      (hbs : bs.all isNameChar = true) : IsWord (b :: bs) := ⟨b, bs, rfl, hb, hbs⟩
  have htrue := Expr.ofText_word (w := "TRUE") (word rfl rfl)
  have hnull := Expr.ofText_word (w := "nUll") (word rfl rfl)
  have hnot := Expr.ofText_word (w := "Not") (word rfl rfl)
  have hlonger := Expr.ofText_word (w := "not.x") (word rfl rfl)
  have hpoint := Expr.ofText_word (w := "Point") (word rfl rfl)
  have hwithin := Expr.ofText_word (w := "s_within") (word rfl rfl)
  exact ⟨htrue.1 (by decide), hnull.2.2.1 (by decide), hnot.2.2.2.1 (by decide),
    hlonger.2.2.2.2 (by decide), hpoint.2.2.2.2 (by decide), hwithin.2.2.2.2 (by decide)⟩

end FeatureFilter
