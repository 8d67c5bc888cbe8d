import FeatureFilter.Proofs.Filter.Printing
import FeatureFilter.Proofs.Filter.Shapes
import FeatureFilter.Proofs.Grammar.CaseFolding

namespace FeatureFilter

open Grammar
open Text (Span)
open Time (digitsValue)

theorem toLower_of_isDigit {c : Char} (h : c.isDigit = true) : c.toLower = c := by
  apply toLower_of_not_isUpper
  rw [isDigit_iff] at h
  rw [Bool.eq_false_iff, Ne, isUpper_iff]
  omega

theorem map_toLower_digits {ds : List Char} (h : ds.all Char.isDigit = true) :
    ds.map Char.toLower = ds := by
  have hall : ∀ c ∈ ds, c.toLower = id c := fun c hc =>
    toLower_of_isDigit (List.all_eq_true.1 h c hc)
  rw [List.map_congr_left hall, List.map_id]

theorem IsSign.map_toLower (h : IsSign s) : s.map Char.toLower = s := by
  rcases h with rfl | rfl | rfl <;> rfl

theorem Mantissa.map_toLower (h : Mantissa ms) : ms.map Char.toLower = ms := by
  cases h with
  | whole _ hall => exact map_toLower_digits hall
  | pointed hws hps =>
    rw [List.map_append, List.map_cons, map_toLower_digits hws, map_toLower_digits hps]
    rfl

/-- The mark of an exponent may be a small or a capital letter. -/
theorem Mantissa.decimal?_mark (h : Mantissa ms) (he : e = 'e' ∨ e = 'E') (xs : List Char) :
    decimal? (ms ++ 'e' :: xs) = decimal? (ms ++ e :: xs) := by
  obtain ⟨n, places, happend⟩ := h.exists_decimal?_append
  rw [happend ('e' :: xs) (by simp), happend (e :: xs) (by simpa using he)]
  rfl

theorem Literal.ofNumeral?_toLower (h : NumberText w) :
    ofNumeral? (w.map Char.toLower) = ofNumeral? w := by
  obtain ⟨s, body, rfl, hs, hbody⟩ := h
  cases hbody with
  | plain hms => rw [List.map_append, hs.map_toLower, hms.map_toLower]
  | @scaled ms e s' ds hms he hs' hne hds =>
    have hmark : e.toLower = 'e' ∧ e.isDigit = false := by
      rcases he with rfl | rfl <;> exact ⟨rfl, rfl⟩
    have hlower : UnsignedText (ms ++ 'e' :: (s' ++ ds)) := .scaled hms (.inl rfl) hs' hne hds
    have hbody : UnsignedText (ms ++ e :: (s' ++ ds)) := .scaled hms he hs' hne hds
    have hdigits {x : Char} (hx : x.isDigit = false) : digits? (ms ++ x :: (s' ++ ds)) = none := by
      apply digits?_eq_none
      rw [List.all_append, List.all_cons, hx, Bool.false_and, Bool.and_false]
    obtain ⟨d, hd⟩ := hbody.exists_decimal?
    have hd' := (hms.decimal?_mark he (s' ++ ds)).trans hd
    rw [List.map_append, List.map_append, List.map_cons, List.map_append, hs.map_toLower,
      hms.map_toLower, hmark.1, hs'.map_toLower, map_toLower_digits hds]
    simp only [ofNumeral?, splitSign_append hs hlower.not_sign, splitSign_append hs hbody.not_sign,
      hdigits hmark.2, hdigits (x := 'e') rfl, Option.bind_none, binary64?, hd, hd']

def Expr.lowerNames (e : Expr) : Expr := e.changed id Text.lower

namespace OfText

theorem lower_ofList (cs : List Char) :
    Text.lower (.ofList cs) = .ofList (cs.map Char.toLower) := by
  rw [Text.lower, String.toList_ofList]

theorem lowerLexeme_eq (r : Rule) (cs : List Char) :
    lowerLexeme r cs = cs ∨ lowerLexeme r cs = cs.map Char.toLower := by
  cases r with
  | stringLiteral => exact .inl rfl
  | _ => exact .inr rfl

/-- The letters of all lexemes but strings become small. -/
def lowering : Change where
  place := id
  lexeme := lowerLexeme
  rename := Text.lower
  error := id
  error_fail _ _ := rfl
  string _ := rfl
  identifier cs := (lower_ofList cs).symm
  quotedIdentifier cs := by
    rw [lower_ofList, Text.between, Text.between, List.map_dropLast, List.map_tail]
    rfl
  functionName cs := by
    rw [← FunctionName.ofString_lower (.ofList cs), lower_ofList]
    rfl
  operator r cs := by
    rcases lowerLexeme_eq r cs with h | h
    · rw [h]
    · rw [h, ← lower_ofList, BinaryOp.ofToken?, BinaryOp.ofToken?, Text.lower_lower]

theorem numeral_lowering (h : NumberText cs) (s : Span) :
    numeral s (cs.map Char.toLower) = lowering.result id (numeral s cs) := by
  obtain ⟨l, hl⟩ := Literal.exists_ofNumeral? h
  rw [numeral_eq hl, numeral_eq ((Literal.ofNumeral?_toLower h).trans hl)]
  rfl

theorem operator_or_node_of_mem {P : BinaryOp → Prop} {op item : Rule}
    (h : Grows cql2 (.rule q) [u]) (hq : q ∈ [item, op, item])
    (ho : Grows cql2 (.rule op) [u] → ∃ o, (∀ s, operator s u = .ok o) ∧ P o)
    (hitem : ∃ x, cql2.define item = .phrase x) :
    (∃ o, ∀ s, operator s u = .ok o) ∨ ∃ r s us, u = .node r s us := by
  have hq : q = op ∨ q = item := (List.mem_cons.1 hq).elim .inr List.mem_pair.1
  rcases hq with rfl | rfl
  · obtain ⟨o, ho, -⟩ := ho h
    exact .inl ⟨o, ho⟩
  · obtain ⟨x, hx⟩ := hitem
    obtain ⟨s, us, hu, -⟩ := h.exists_node hx
    cases hu
    exact .inr ⟨_, s, us, rfl⟩

/-- The parts of a rule with operators are these operators and nodes. -/
theorem operator_or_node (hr : Change.operates r = true) (hd : cql2.define r = .phrase x)
    (h : Grows cql2 x ts) (hu : u ∈ ts) :
    (∃ o, ∀ s, operator s u = .ok o) ∨ ∃ r s us, u = .node r s us := by
  obtain ⟨q, hq, hg⟩ := h.exists_mem_rules hu
  cases r with
  | disjunction =>
    cases hd
    exact operator_or_node_of_mem hg hq joining_disjunction.exists_operator ⟨_, rfl⟩
  | conjunction =>
    cases hd
    exact operator_or_node_of_mem hg hq joining_conjunction.exists_operator ⟨_, rfl⟩
  | additive =>
    cases hd
    exact operator_or_node_of_mem hg hq joining_additive.exists_operator ⟨_, rfl⟩
  | multiplicative =>
    cases hd
    exact operator_or_node_of_mem hg hq joining_multiplicative.exists_operator ⟨_, rfl⟩
  | comparisonTail =>
    cases hd
    exact operator_or_node_of_mem hg (.tail _ hq) exists_relation_of_comparisonOp ⟨_, rfl⟩
  | spatialTail =>
    cases hd
    exact operator_or_node_of_mem hg (.tail _ hq) exists_relation_of_spatialOp ⟨_, rfl⟩
  | _ => cases hr

theorem counts_lowering (h : Grows cql2 e ts) (ht : t ∈ ts) : lowering.Counts t where
  numeral r s cs hu hr := by
    obtain ⟨r', hg⟩ := h.exists_of_within ht hu
    cases hg with
    | token hd hs =>
      rcases hr with rfl | rfl
      · cases hd
        exact numeral_lowering (Pattern.numberText_of_scan hs) s
      · cases hd
        exact numeral_lowering (Pattern.numberText_of_scan_signed hs) s
  ordinate s us hu u hmem := by
    obtain ⟨r', hg⟩ := h.exists_of_within ht hu
    cases hg with
    | node hd hus =>
      cases hd
      obtain ⟨r, hr, hg⟩ := hus.exists_mem_rules hmem
      have hsigned : r = .signedNumber := by
        simpa [Phrase.inOrder, Phrase.rules] using hr
      subst hsigned
      obtain ⟨s', lexeme, cs, rest, hu, hs⟩ := hg.exists_token rfl
      cases hu
      apply Change.result_bind (numeral_lowering (Pattern.numberText_of_scan_signed hs) s)
      intro l
      exact Change.result_orFail (k := lowering) s _ _
  operator r s us hu hr u hmem := by
    obtain ⟨r', hg⟩ := h.exists_of_within ht hu
    cases hg with
    | node hd hus =>
      rcases operator_or_node hr hd hus hmem with ⟨o, ho⟩ | ⟨_, _, _, rfl⟩
      · rw [ho, Change.operator_tree (k := lowering) (ho s)]
        rfl
      · rfl

theorem filter_lowerTrees (h : (cql2.parse .filter cs).result = some (d, trees)) :
    filter (lowerTrees trees) = (filter trees).map Expr.lowerNames := by
  have hg : Grows cql2 (.rule .filter) trees :=
    ((RuleSet.parse_eq_iff cql2_ranked .filter cs).1 h).grows _ _ rfl
  obtain ⟨s, us, rfl, hus⟩ := hg.exists_node rfl
  obtain ⟨_, more, rfl, hnothing, hmore⟩ := hus.exists_seq
  cases hnothing
  obtain ⟨ts, ends, rfl, hexpression, _⟩ := hmore.exists_seq
  obtain ⟨t, rfl⟩ := hexpression.exists_tree
  have ht := Change.expr_tree (counts_lowering hexpression List.mem_cons_self)
  have hresult : lowering.result lowering.filter (expr t) = (expr t).map Expr.lowerNames := by
    cases expr t with
    | error => rfl
    | ok => rfl
  exact ht.trans hresult

end OfText

/-- Without names in double quotes, small letters outside strings make a difference to the names of
properties only. -/
theorem Expr.ofText_lowerOutside (h : '"' ∉ text.toList) :
    Expr.ofText (.ofList (lowerOutside false text.toList)) =
      (Expr.ofText text).map Expr.lowerNames := by
  rw [Expr.ofText, String.toList_ofList, RuleSet.parse_lowered cql2_caseBlind .filter h,
    Expr.ofText]
  cases hp : cql2.parse .filter text.toList with
  | mk a result =>
    cases result with
    | none => rfl
    | some m => exact OfText.filter_lowerTrees (congrArg Outcome.result hp)

/-- Keywords, a function, a numeral with an exponent and a name in capitals, and a string. -/
theorem Expr.ofText_lowerOutside_capitals :
    '"' ∉ "S_Within(Geom, POINT(1E1 2)) AND NOT Name LIKE 'It''s %'".toList ∧
      Expr.ofText "s_within(geom, point(1e1 2)) and not name like 'It''s %'" =
        (Expr.ofText "S_Within(Geom, POINT(1E1 2)) AND NOT Name LIKE 'It''s %'").map
          Expr.lowerNames := by
  have hcs : '"' ∉ "S_Within(Geom, POINT(1E1 2)) AND NOT Name LIKE 'It''s %'".toList := by decide
  have hlower : String.ofList (lowerOutside false
      "S_Within(Geom, POINT(1E1 2)) AND NOT Name LIKE 'It''s %'".toList) =
        "s_within(geom, point(1e1 2)) and not name like 'It''s %'" := by decide
  refine ⟨hcs, ?_⟩
  rw [← hlower]
  exact Expr.ofText_lowerOutside hcs

end FeatureFilter
