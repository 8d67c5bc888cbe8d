import Mathlib.Data.List.Basic
import FeatureFilter.Proofs.Filter.Layers
import FeatureFilter.Proofs.Filter.Wrapping
import FeatureFilter.Proofs.Grammar.Trees
import FeatureFilter.Proofs.Grammar.Words

namespace FeatureFilter

open Grammar
open Text (Span)

theorem ofToken?_of_keyword (hw : op.name = w)
    (h : (Pattern.keyword w).scan cs = some (lexeme, rest)) :
    BinaryOp.ofToken? (.ofList lexeme) = some op := by
  apply BinaryOp.ofToken?_eq_some
  rw [hw, Text.lower, String.toList_ofList, Pattern.lower_of_scan_keyword h, String.ofList_toList]

theorem mem_of_scan_signs (ws : List String)
    (h : (Pattern.anyOf (ws.map Pattern.str)).scan cs = some (lexeme, rest)) :
    String.ofList lexeme ∈ ws := by
  obtain ⟨p, hp, hs⟩ := Pattern.exists_of_scan_anyOf h
  obtain ⟨w, hw, rfl⟩ := List.mem_map.1 hp
  cases (Pattern.scan_text_iff.1 hs).1
  rw [String.ofList_toList]
  exact hw

/-- A rule for operands with operators between them, each of which joins such operands. -/
structure Joining (r op item : Rule) : Prop extends Chains r op item where
  layer : r.tighter? = some item
  token : ∃ p, cql2.define op = .token p ∧ ∀ cs lexeme rest, p.scan cs = some (lexeme, rest) →
    ∃ o, BinaryOp.ofToken? (.ofList lexeme) = some o ∧ o.Joins r item

theorem joining_disjunction : Joining .disjunction .kwOr .conjunction where
  toChains := chains_disjunction
  layer := rfl
  token := ⟨_, rfl, fun _ _ _ h => ⟨.or, ofToken?_of_keyword rfl h, .or⟩⟩

theorem joining_conjunction : Joining .conjunction .kwAnd .negation where
  toChains := chains_conjunction
  layer := rfl
  token := ⟨_, rfl, fun _ _ _ h => ⟨.and, ofToken?_of_keyword rfl h, .and⟩⟩

theorem joining_additive : Joining .additive .addOp .multiplicative where
  toChains := chains_additive
  layer := rfl
  token := by
    refine ⟨_, rfl, fun cs lexeme rest h => ?_⟩
    rcases List.mem_pair.1 (mem_of_scan_signs ["+", "-"] h) with hl | hl <;> rw [hl]
    · exact ⟨_, rfl, .add⟩
    · exact ⟨_, rfl, .subtract⟩

theorem joining_multiplicative : Joining .multiplicative .mulOp .unary where
  toChains := chains_multiplicative
  layer := rfl
  token := by
    refine ⟨_, rfl, fun cs lexeme rest h => ?_⟩
    rcases List.mem_pair.1 (mem_of_scan_signs ["*", "/"] h) with hl | hl <;> rw [hl]
    · exact ⟨_, rfl, .multiply⟩
    · exact ⟨_, rfl, .divide⟩

theorem exists_relation_of_comparisonOp (h : Grows cql2 (.rule .comparisonOp) [t]) :
    ∃ op, (∀ s, OfText.operator s t = .ok op) ∧ op.Relates := by
  obtain ⟨s, lexeme, cs, rest, ht, hs⟩ := h.exists_token rfl
  cases ht
  have hmem := mem_of_scan_signs ["<>", "<=", ">=", "<", ">", "="] hs
  simp only [List.mem_cons, List.not_mem_nil, or_false] at hmem
  rcases hmem with hl | hl | hl | hl | hl | hl <;>
  · rw [← String.toList_ofList (l := lexeme), hl]
    exact ⟨_, fun _ => rfl, .comparison⟩

theorem exists_relation_of_spatialOp (h : Grows cql2 (.rule .spatialOp) [t]) :
    ∃ op, (∀ s, OfText.operator s t = .ok op) ∧ op.Relates := by
  obtain ⟨s, lexeme, cs, rest, ht, hs⟩ := h.exists_token rfl
  cases ht
  obtain ⟨first, mid, more, hfirst, hmore, rfl⟩ := Pattern.exists_of_scan_seq hs
  cases (Pattern.scan_unless.1 hmore).2
  obtain ⟨p, hp, hscan⟩ := Pattern.exists_of_scan_anyOf hfirst
  obtain ⟨w, hw, rfl⟩ := List.mem_map.1 hp
  obtain ⟨hlower, rfl⟩ := Pattern.scan_anyCase_iff.1 hscan
  have hword : w ∈ SpatialOp.all.map SpatialOp.name := hw
  obtain ⟨spatial, -, hspatial⟩ := List.mem_map.1 hword
  have htoken : BinaryOp.ofToken? (.ofList (first ++ [])) = some (.spatial spatial) := by
    apply BinaryOp.ofToken?_eq_some
    rw [BinaryOp.name, hspatial, Text.lower, String.toList_ofList, List.append_nil, hlower,
      String.ofList_toList]
  exact ⟨_, OfText.operator_token htoken, .spatial⟩

theorem Joining.exists_operator (hr : Joining r op item) (h : Grows cql2 (.rule op) [t]) :
    ∃ o, (∀ s, OfText.operator s t = .ok o) ∧ o.Joins r item := by
  obtain ⟨p, hp, hscan⟩ := hr.token
  obtain ⟨s, lexeme, cs, rest, ht, hs⟩ := h.exists_token hp
  cases ht
  obtain ⟨o, ho, hjoins⟩ := hscan _ _ _ hs
  exact ⟨o, OfText.operator_token ho, hjoins⟩

namespace Grammar.Grows

theorem exists_rule (rules : List Rule) (h : Grows cql2 (.anyOf (rules.map .rule)) ts)
    (hne : rules ≠ []) : ∃ r ∈ rules, Grows cql2 (.rule r) ts := by
  induction rules with
  | nil => exact absurd rfl hne
  | cons r rules ih =>
    cases rules with
    | nil => exact ⟨r, List.mem_cons_self, h⟩
    | cons r' rules =>
      cases h with
      | choiceLeft h => exact ⟨r, List.mem_cons_self, h⟩
      | choiceRight h =>
        obtain ⟨q, hq, hg⟩ := ih h (List.cons_ne_nil _ _)
        exact ⟨q, List.mem_cons_of_mem r hq, hg⟩

theorem of_parens (h : Grows cql2 (.parens x) ts) : Grows cql2 x ts := by
  cases h with
  | seq hopen h =>
    cases hopen
    cases h with
    | seq h hclose =>
      cases hclose
      rw [List.nil_append, List.append_nil]
      exact h

theorem each_of_many (h : Grows g (.many (.seq (.mark ws) (.rule r))) ts) :
    ∀ t ∈ ts, Grows g (.rule r) [t] := by
  generalize hx : Phrase.many (.seq (.mark ws) (.rule r)) = x at h
  induction h with
  | never => exact nofun
  | many hitem _ _ ih =>
    cases hx
    cases hitem with
    | seq hmark hitem =>
      cases hmark
      obtain ⟨t, rfl⟩ := hitem.exists_tree
      exact List.forall_mem_cons.2 ⟨hitem, ih rfl⟩
  | _ => cases hx

theorem each_of_commas (h : Grows cql2 (.commas (.rule r)) ts) :
    ts ≠ [] ∧ ∀ t ∈ ts, Grows cql2 (.rule r) [t] := by
  cases h with
  | seq hitem hmore =>
    obtain ⟨t, rfl⟩ := hitem.exists_tree
    exact ⟨List.cons_ne_nil _ _, List.forall_mem_cons.2 ⟨hitem, each_of_many hmore⟩⟩

theorem each_of_arguments (h : Grows cql2 .arguments ts) :
    ∀ t ∈ ts, Grows cql2 (.rule .expression) [t] := by
  cases h.of_parens with
  | optional h => exact (each_of_commas h).2
  | absent => exact nofun

end Grammar.Grows

/-- The rules whose trees stand for filters. -/
def Grammar.Rule.isValue : Rule → Bool
  | .expression | .disjunction | .conjunction | .negation | .predicate | .additive
  | .multiplicative | .unary | .signedNumber => true
  | r => primaryRules.contains r

namespace OfText

/-- The parts of a rule that are no keywords. -/
def nodes (ts : List (ParseTree Rule)) : List (ParseTree Rule) :=
  ts.filter fun
    | .token .. => false
    | .node .. => true

theorem operands_eq (ts : List (ParseTree Rule)) : operands ts = each (nodes ts) := by
  induction ts with
  | nil => rfl
  | cons t ts ih =>
    cases t with
    | token => exact ih
    | node =>
      rw [operands, ih]
      rfl

theorem nodes_keyword (hk : cql2.define k = .token p) (h : Grows cql2 (.rule k) ts) :
    nodes ts = [] := by
  obtain ⟨s, lexeme, cs, rest, rfl, -⟩ := h.exists_token hk
  rfl

theorem nodes_optional (hk : cql2.define k = .token p) (h : Grows cql2 (.optional (.rule k)) ts) :
    nodes ts = [] := by
  cases h with
  | optional h => exact nodes_keyword hk h
  | absent => rfl

theorem nodes_operands (h : ∀ t ∈ ts, Grows cql2 .operand [t]) : nodes ts = ts := by
  refine List.filter_eq_self.2 fun t ht => ?_
  obtain ⟨s, us, he, -⟩ := (h t ht).exists_node rfl
  cases he
  rfl

theorem nodes_operand (h : Grows cql2 .operand [t]) : nodes [t] = [t] :=
  nodes_operands (List.forall_mem_singleton.2 h)

theorem nodes_append (ts us : List (ParseTree Rule)) : nodes (ts ++ us) = nodes ts ++ nodes us :=
  List.filter_append ts us

theorem exists_tree_of_bound (h : Grows cql2 .intervalBound ts) : ∃ t, ts = [t] := by
  obtain ⟨r, -, hg⟩ := h.exists_rule boundRules (List.cons_ne_nil _ _)
  exact hg.exists_tree

/-- What the nodes that stand for filters consist of, rule by rule. -/
inductive Shape : Rule → List (ParseTree Rule) → Prop
  | expression : Grows cql2 (.rule .disjunction) [t] → Shape .expression [t]
  | chain : Joining r op item → Grows cql2 (.separated (.rule op) (.rule item)) ts → Shape r ts
  | not : Grows cql2 (.rule .negation) [t] → Shape .negation [.token .kwNot s word, t]
  | positive : Grows cql2 (.rule .predicate) [t] → Shape .negation [t]
  | minus : Grows cql2 (.rule .unary) [t] → Shape .unary [.token .minus s word, t]
  | primary : r ∈ primaryRules → Grows cql2 (.rule r) [t] → Shape .unary [t]
  | subject : Grows cql2 (.rule .additive) [t] → Shape .predicate [t]
  | predicate : Grows cql2 (.rule .additive) [t] → Grows cql2 .predicateTail [tail] →
    Shape .predicate [t, tail]
  | boolean : Shape .booleanLiteral ts
  | null : Shape .nullLiteral ts
  | timestamp : Shape .timestampLiteral [k, .token .stringLiteral s lexeme]
  | date : Shape .dateLiteral [k, .token .stringLiteral s lexeme]
  | interval : Grows cql2 .intervalBound [t] → Grows cql2 .intervalBound [u] →
    Shape .interval [k, t, u]
  | box : ts ≠ [] → (∀ t ∈ ts, Grows cql2 (.rule .signedNumber) [t]) → Shape .bbox (k :: ts)
  | geometry : Shape .geometryLiteral ts
  | call : (∀ t ∈ ts, Grows cql2 (.rule .expression) [t]) →
    Shape .functionCall (.token .functionName s lexeme :: ts)
  | parenthesized : (∀ t ∈ ts, Grows cql2 (.rule .expression) [t]) → Shape .parenthesized ts
  | property : Grows cql2 (.anyOf [.rule .quotedIdentifier, .rule .identifier]) ts →
    Shape .property ts

theorem exists_string (h : Grows cql2 (.inOrder [.rule k, .parens (.rule .stringLiteral)]) ts) :
    ∃ t s lexeme, ts = [t, .token .stringLiteral s lexeme] := by
  obtain ⟨_, _, rfl, hkeyword, hstring⟩ := h.exists_seq
  obtain ⟨t, rfl⟩ := hkeyword.exists_tree
  obtain ⟨s, lexeme, _, _, rfl, -⟩ := hstring.of_parens.exists_token rfl
  exact ⟨t, s, lexeme, rfl⟩

theorem shape_of_grows (hr : r.isValue = true) (hd : cql2.define r = .phrase x)
    (h : Grows cql2 x ts) : Shape r ts := by
  cases r with
  | expression =>
    cases hd
    obtain ⟨t, rfl⟩ := h.exists_tree
    exact .expression h
  | disjunction =>
    cases hd
    exact .chain joining_disjunction h
  | conjunction =>
    cases hd
    exact .chain joining_conjunction h
  | additive =>
    cases hd
    exact .chain joining_additive h
  | multiplicative =>
    cases hd
    exact .chain joining_multiplicative h
  | negation =>
    cases hd
    cases h with
    | choiceLeft h =>
      obtain ⟨_, _, rfl, hnot, ht⟩ := h.exists_seq
      obtain ⟨s, word, _, _, rfl, -⟩ := hnot.exists_token rfl
      obtain ⟨t, rfl⟩ := ht.exists_tree
      exact .not ht
    | choiceRight h =>
      obtain ⟨t, rfl⟩ := h.exists_tree
      exact .positive h
  | unary =>
    cases hd
    cases h with
    | choiceLeft h =>
      obtain ⟨_, _, rfl, hminus, ht⟩ := h.exists_seq
      obtain ⟨s, word, _, _, rfl, -⟩ := hminus.exists_token rfl
      obtain ⟨t, rfl⟩ := ht.exists_tree
      exact .minus ht
    | choiceRight h =>
      obtain ⟨r, hr, hg⟩ := h.exists_rule primaryRules (List.cons_ne_nil _ _)
      obtain ⟨t, rfl⟩ := hg.exists_tree
      exact .primary hr hg
  | predicate =>
    cases hd
    obtain ⟨_, _, rfl, ht, htail⟩ := h.exists_seq
    obtain ⟨t, rfl⟩ := ht.exists_tree
    cases htail with
    | absent => exact .subject ht
    | optional htail =>
      obtain ⟨_, -, hg⟩ := htail.exists_rule tailRules (List.cons_ne_nil _ _)
      obtain ⟨tail, rfl⟩ := hg.exists_tree
      exact .predicate ht htail
  | booleanLiteral => exact .boolean
  | nullLiteral => exact .null
  | timestampLiteral =>
    cases hd
    obtain ⟨t, s, lexeme, rfl⟩ := exists_string h
    exact .timestamp
  | dateLiteral =>
    cases hd
    obtain ⟨t, s, lexeme, rfl⟩ := exists_string h
    exact .date
  | interval =>
    cases hd
    obtain ⟨_, _, rfl, hkeyword, hbounds⟩ := h.exists_seq
    obtain ⟨k, rfl⟩ := hkeyword.exists_tree
    obtain ⟨_, _, rfl, hstart, hmore⟩ := hbounds.of_parens.exists_seq
    obtain ⟨_, _, rfl, hcomma, hstop⟩ := hmore.exists_seq
    obtain ⟨start, rfl⟩ := exists_tree_of_bound hstart
    obtain ⟨stop, rfl⟩ := exists_tree_of_bound hstop
    cases hcomma
    exact .interval hstart hstop
  | bbox =>
    cases hd
    obtain ⟨_, _, rfl, hkeyword, hitems⟩ := h.exists_seq
    obtain ⟨k, rfl⟩ := hkeyword.exists_tree
    obtain ⟨hne, hitems⟩ := hitems.of_parens.each_of_commas
    exact .box hne hitems
  | geometryLiteral => exact .geometry
  | functionCall =>
    cases hd
    obtain ⟨_, _, rfl, hname, hargs⟩ := h.exists_seq
    obtain ⟨s, lexeme, _, _, rfl, -⟩ := hname.exists_token rfl
    exact .call hargs.each_of_arguments
  | parenthesized =>
    cases hd
    exact .parenthesized h.each_of_arguments
  | property =>
    cases hd
    exact .property h
  | numberLiteral | signedNumber | stringLiteral => cases hd
  | _ => cases hr

/-- Nodes of other rules stand for no filter. -/
theorem isValue_of_expr (h : expr (.node r s ts) = .ok e) : r.isValue = true := by
  cases r <;> first | rfl | cases h

theorem isToken_of_grows (h : Grows cql2 (.rule r) [t]) (hr : r ≠ mark) :
    isToken mark t = false := by
  cases h with
  | token => exact beq_false_of_ne hr
  | node => rfl

theorem expr_positive (h : Grows cql2 (.rule .predicate) [t]) (s : Span) :
    expr (.node .negation s [t]) = expr t := signed_one (isToken_of_grows h (by decide)) _ _ _ s

theorem expr_primary (hr : r ∈ primaryRules) (h : Grows cql2 (.rule r) [t]) (s : Span) :
    expr (.node .unary s [t]) = expr t := by
  have hminus : ∀ q ∈ primaryRules, q ≠ .minus := by decide
  exact signed_one (isToken_of_grows h (hminus r hr)) _ _ _ s

theorem expr_timestamp : expr (.node .timestampLiteral s [k, .token .stringLiteral s' lexeme]) =
    timestamp s (stringValue lexeme) := pure_bind (stringValue lexeme) (timestamp s)

theorem expr_date : expr (.node .dateLiteral s [k, .token .stringLiteral s' lexeme]) =
    date s (stringValue lexeme) := pure_bind (stringValue lexeme) (date s)

/-- What may follow the subject of a predicate: an operator with one operand, keywords with as many
operands as they take, or keywords only. -/
inductive Tail : ParseTree Rule → Prop
  | relation : r = .comparisonTail ∨ r = .spatialTail → (∀ s, operator s op = .ok o) →
    o.Relates → Grows cql2 .operand [t] → Tail (.node r s [op, t])
  | advanced : r = .likeTail ∨ r = .betweenTail ∨ r = .inTail →
    (∀ t ∈ nodes ts, Grows cql2 .operand [t]) → (advancedOp r).Takes ((nodes ts).length + 1) →
    Tail (.node r s ts)
  | isNull : Tail (.node .isNullTail s ts)

theorem predicate_relation (hr : r = .comparisonTail ∨ r = .spatialTail) :
    predicate span subject (.node r s ts) = related span s subject ts := by
  rcases hr with rfl | rfl
  · rfl
  · rfl

theorem predicate_advanced (hr : r = .likeTail ∨ r = .betweenTail ∨ r = .inTail) :
    predicate span subject (.node r s ts) = do
      return .advanced span (advancedOp r) (ts.any (isToken .kwNot))
        (subject :: (← operands ts)) := by
  rcases hr with rfl | rfl | rfl
  · rfl
  · rfl
  · rfl

theorem tail_of_relation (hr : r = .comparisonTail ∨ r = .spatialTail)
    (ho : ∀ t, Grows cql2 (.rule sign) [t] → ∃ op, (∀ s, operator s t = .ok op) ∧ op.Relates)
    (h : Grows cql2 (.inOrder [.rule sign, .operand]) ts) (s : Span) : Tail (.node r s ts) := by
  obtain ⟨_, _, rfl, hsign, ht⟩ := h.exists_seq
  obtain ⟨op, rfl⟩ := hsign.exists_tree
  obtain ⟨t, rfl⟩ := ht.exists_tree
  obtain ⟨o, ho, hrelates⟩ := ho op hsign
  exact .relation hr ho hrelates ht

theorem tail_of_advanced (hr : r = .likeTail ∨ r = .betweenTail ∨ r = .inTail)
    (hnodes : nodes ts = us) (hus : ∀ t ∈ us, Grows cql2 .operand [t])
    (htakes : (advancedOp r).Takes (us.length + 1)) (s : Span) : Tail (.node r s ts) := by
  subst hnodes
  exact .advanced hr hus htakes

theorem tail_of_grows (h : Grows cql2 .predicateTail [tail]) : Tail tail := by
  obtain ⟨r, hr, hg⟩ := h.exists_rule tailRules (List.cons_ne_nil _ _)
  simp only [tailRules, List.mem_cons, List.not_mem_nil, or_false] at hr
  rcases hr with rfl | rfl | rfl | rfl | rfl | rfl
  · obtain ⟨s, ts, ht, hts⟩ := hg.exists_node rfl
    cases ht
    exact tail_of_relation (.inl rfl) (fun _ => exists_relation_of_comparisonOp) hts s
  · obtain ⟨s, ts, ht, hts⟩ := hg.exists_node rfl
    cases ht
    exact tail_of_relation (.inr rfl) (fun _ => exists_relation_of_spatialOp) hts s
  · obtain ⟨s, ts, ht, hts⟩ := hg.exists_node rfl
    cases ht
    obtain ⟨_, _, rfl, hnot, hts⟩ := hts.exists_seq
    obtain ⟨_, _, rfl, hlike, hoperand⟩ := hts.exists_seq
    obtain ⟨t, rfl⟩ := hoperand.exists_tree
    have hus : ∀ u ∈ [t], Grows cql2 .operand [u] := List.forall_mem_singleton.2 hoperand
    refine tail_of_advanced (.inl rfl) ?_ hus rfl s
    rw [nodes_append, nodes_append, nodes_optional rfl hnot, nodes_keyword rfl hlike,
      nodes_operand hoperand]
    rfl
  · obtain ⟨s, ts, ht, hts⟩ := hg.exists_node rfl
    cases ht
    obtain ⟨_, _, rfl, hnot, hts⟩ := hts.exists_seq
    obtain ⟨_, _, rfl, hbetween, hts⟩ := hts.exists_seq
    obtain ⟨_, _, rfl, hlow, hts⟩ := hts.exists_seq
    obtain ⟨_, _, rfl, hand, hhigh⟩ := hts.exists_seq
    obtain ⟨low, rfl⟩ := hlow.exists_tree
    obtain ⟨high, rfl⟩ := hhigh.exists_tree
    have hus : ∀ u ∈ [low, high], Grows cql2 .operand [u] :=
      List.forall_mem_cons.2 ⟨hlow, List.forall_mem_singleton.2 hhigh⟩
    refine tail_of_advanced (.inr (.inl rfl)) ?_ hus rfl s
    rw [nodes_append, nodes_append, nodes_append, nodes_append, nodes_optional rfl hnot,
      nodes_keyword rfl hbetween, nodes_keyword rfl hand, nodes_operand hlow, nodes_operand hhigh]
    rfl
  · obtain ⟨s, ts, ht, hts⟩ := hg.exists_node rfl
    cases ht
    obtain ⟨_, _, rfl, hnot, hts⟩ := hts.exists_seq
    obtain ⟨_, us, rfl, hin, htuple⟩ := hts.exists_seq
    obtain ⟨hne, hus⟩ := htuple.of_parens.each_of_commas
    have htakes : AdvancedOp.isIn.Takes (us.length + 1) :=
      Nat.succ_le_succ (List.length_pos_iff.2 hne)
    refine tail_of_advanced (.inr (.inr rfl)) ?_ hus htakes s
    rw [nodes_append, nodes_append, nodes_optional rfl hnot, nodes_keyword rfl hin,
      nodes_operands hus]
    rfl
  · obtain ⟨s, ts, ht, hts⟩ := hg.exists_node rfl
    cases ht
    exact .isNull

end OfText
end FeatureFilter
