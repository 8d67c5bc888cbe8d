import FeatureFilter.Proofs.Filter.Places
import FeatureFilter.Proofs.Grammar.Cql2

namespace FeatureFilter

open Grammar
open Text (Span)

namespace OfText

theorem expr_parenthesized (h : expr t = .ok e) (s : Span) :
    expr (.node .parenthesized s [t]) = .ok (.group s e) := by
  simp only [expr, each, h]
  rfl

theorem expr_negation (h : expr t = .ok e) (s s' : Span) (lexeme : List Char) :
    expr (.node .negation s [.token .kwNot s' lexeme, t]) = .ok (.unary s .not e) := by
  simp only [expr, signed, h]
  rfl

theorem signed_one (h : isToken mark t = false) (op : UnaryOp) (part operand : String)
    (s : Span) : signed mark op part operand s [t] = expr t := by
  rw [signed, h]
  rfl

theorem isToken_eq_false (hm : mark = .kwNot ∨ mark = .minus) (h : expr t = .ok e) :
    isToken mark t = false := by
  cases t with
  | node => rfl
  | token rule s cs =>
    apply beq_false_of_ne
    rintro rfl
    rcases hm with rfl | rfl <;> cases h

theorem expr_unnegated (h : expr t = .ok e) (s : Span) : expr (.node .negation s [t]) = .ok e :=
  (signed_one (isToken_eq_false (.inl rfl) h) _ _ _ s).trans h

theorem expr_unsigned (h : expr t = .ok e) (s : Span) : expr (.node .unary s [t]) = .ok e :=
  (signed_one (isToken_eq_false (.inr rfl) h) _ _ _ s).trans h

theorem chain_one (h : expr t = .ok e) (rule : Rule) (s : Span) : chain rule s [t] = .ok e := by
  simp only [chain, h]
  rfl

theorem chain_two (h : expr t = .ok e) (h' : expr t' = .ok e')
    (hop : BinaryOp.ofToken? (.ofList lexeme) = some op) (rule rule' : Rule) (s s' : Span) :
    chain rule s [t, .token rule' s' lexeme, t'] = .ok (.binary s op e e') := by
  simp only [chain, chainFrom, operator_token hop, h, h']
  rfl

end OfText

/-- The trees of a text in the grammar are those of an expression that takes all of it. -/
theorem exists_expression (h : (cql2.parse .filter cs).result = some (d', trees)) :
    ∃ d t, Derives cql2 (.phrase (.rule .expression)) (Cursor.ofText cs).skipBlanks
      (some (d, [t])) ∧ d.skipBlanks.rest = [] ∧ OfText.filter trees = OfText.expr t := by
  have hfilter := (RuleSet.parse_eq_iff cql2_ranked .filter cs).1 h
  obtain ⟨_, hbody, rfl⟩ := hfilter.exists_node rfl
  obtain ⟨_, _, _, hnothing, hrest, rfl⟩ := hbody.exists_seq
  obtain ⟨d, _, _, he, hend, rfl⟩ := hrest.exists_seq
  obtain ⟨t, rfl⟩ := he.exists_tree
  obtain ⟨_, hover, rfl⟩ := hend.exists_node rfl
  cases hnothing
  cases hover with
  | endOfText hd => exact ⟨d, t, he, hd, rfl⟩

theorem ofText_of_derives (ht : Derives cql2 (.phrase (.rule .expression))
    (Cursor.ofText text.toList).skipBlanks (some (d, [t]))) (hd : d.skipBlanks.rest = []) :
    Expr.ofText text = OfText.expr t := by
  have hfilter := Derives.node (g := cql2) (r := .filter) rfl
    (.seq .nothing (.seq ht (.node rfl (.endOfText hd))))
  have hparse := (RuleSet.parse_eq_iff cql2_ranked .filter text.toList).2 hfilter
  rw [Expr.ofText]
  cases hp : cql2.parse .filter text.toList with
  | mk a result =>
    rw [hp] at hparse
    cases hparse
    rfl

theorem derives_of_ofText (h : Expr.ofText text = .ok e) :
    ∃ d t, Derives cql2 (.phrase (.rule .expression)) (Cursor.ofText text.toList).skipBlanks
      (some (d, [t])) ∧ d.skipBlanks.rest = [] ∧ OfText.expr t = .ok e := by
  rw [Expr.ofText] at h
  cases hp : cql2.parse .filter text.toList with
  | mk a result =>
    rw [hp] at h
    cases result with
    | none => cases h
    | some m =>
      obtain ⟨d, t, ht, hd, he⟩ := exists_expression (congrArg Outcome.result hp)
      exact ⟨d, t, ht, hd, he.symm.trans h⟩

/-- A rule takes the text between two points, and stands for a filter there. -/
def Yields (r : Rule) (c d : Cursor) (e : Expr) : Prop :=
  ∃ t, Derives cql2 (.phrase (.rule r)) c (some (d, [t])) ∧ OfText.expr t = .ok e

/-- A rule takes the text between two points, and stands for a filter there, places apart. -/
def Spells (r : Rule) (c d : Cursor) (e : Expr) : Prop :=
  ∃ t e', Derives cql2 (.phrase (.rule r)) c (some (d, [t])) ∧ OfText.expr t = .ok e' ∧
    e'.unplaced = e

/-- What holds of the rules around a filter does not depend on places. -/
theorem Spells.lift (h : Spells r c d e) (hr : ∀ e', Yields r c d e' → Yields r' c d' e') :
    Spells r' c d' e := by
  obtain ⟨t, e', ht, he, hplace⟩ := h
  obtain ⟨t', ht', he'⟩ := hr e' ⟨t, ht, he⟩
  exact ⟨t', e', ht', he', hplace⟩

theorem Spells.ofText (h : Spells .expression (Cursor.ofText text.toList).skipBlanks d e)
    (hd : d.skipBlanks.rest = []) : ∃ e', Expr.ofText text = .ok e' ∧ e'.unplaced = e := by
  obtain ⟨t, e', ht, he, hplace⟩ := h
  exact ⟨e', (ofText_of_derives ht hd).trans he, hplace⟩

theorem closes_of_ofText (h : Expr.ofText text = .ok e) : Closes 0 text.toList := by
  obtain ⟨d, t, ht, hd, -⟩ := derives_of_ofText h
  have hreads := (Reads.skipBlanks 0 _).trans
    ((ht.reads cql2_bracketed (n := 0) rfl _ _ rfl).trans (.skipBlanks 0 _))
  obtain ⟨w, hw, hlevel⟩ := hreads
  rw [hd, List.append_nil] at hw
  cases hw
  exact ⟨0, Int.le_refl 0, hlevel⟩

theorem spells_parenthesized (h : Expr.ofText text = .ok e)
    (hc : c.rest = '(' :: (text.toList ++ ')' :: k)) :
    ∃ d, d.rest = k ∧ Spells .parenthesized c d (.group .zero e.unplaced) := by
  obtain ⟨d, t, ht, hd, he⟩ := derives_of_ofText h
  have hclosed := (closes_of_ofText h).of_reads (.skipBlanks 0 (.ofText text.toList))
  have hopen : Pattern.scan (.text "(".toList) c.rest = some (['('], text.toList ++ ')' :: k) := by
    rw [hc]
    rfl
  have hinside : (c.moveTo ['('] (text.toList ++ ')' :: k)).skipBlanks.rest =
      (Cursor.ofText text.toList).skipBlanks.rest ++ ')' :: k :=
    Cursor.rest_skipBlanks_append rfl
  -- Behind the opening parenthesis the filter is read as it is by itself, up to the closing one.
  obtain ⟨_, ht', d', ts', rfl, hrest, htrees⟩ :=
    ht.extend cql2_bracketed (n := 0) rfl hclosed hinside
  obtain ⟨t', rfl⟩ := ht'.exists_tree
  obtain ⟨e', he', hplace⟩ := OfText.exists_expr_of_unplaced_eq (List.cons.inj htrees).1 he
  have hclose : d'.skipBlanks.rest = ')' :: k := by
    rw [Cursor.rest_skipBlanks_append hrest, hd]
    rfl
  have hcomma : Pattern.scan (.text ",".toList) d'.skipBlanks.rest = none := by
    rw [hclose]
    rfl
  have hlast : Pattern.scan (.text ")".toList) d'.skipBlanks.skipBlanks.rest =
      some ([')'], k) := by
    rw [Cursor.skipBlanks_skipBlanks, hclose]
    rfl
  exact ⟨_, rfl, _, _, .node rfl (.seq (.mark hopen) (.seq
    (.optional (.seq ht' (.never (.seqLeft (.noMark hcomma))))) (.mark hlast))),
    OfText.expr_parenthesized he' _, congrArg (Expr.group .zero) hplace⟩

structure Chains (r op item : Rule) : Prop where
  define : cql2.define r = .phrase (.separated (.rule op) (.rule item))
  expr : ∀ s ts, OfText.expr (.node r s ts) = OfText.chain r s ts

theorem chains_multiplicative : Chains .multiplicative .mulOp .unary := ⟨rfl, fun _ _ => rfl⟩

theorem chains_additive : Chains .additive .addOp .multiplicative := ⟨rfl, fun _ _ => rfl⟩

theorem chains_conjunction : Chains .conjunction .kwAnd .negation := ⟨rfl, fun _ _ => rfl⟩

theorem chains_disjunction : Chains .disjunction .kwOr .conjunction := ⟨rfl, fun _ _ => rfl⟩

namespace Yields

theorem chain (h : Yields item c d e) (hr : Chains r op item)
    (hop : cql2.misses 1 d.skipBlanks.rest op = true) : Yields r c d.skipBlanks e := by
  obtain ⟨t, ht, he⟩ := h
  have hmiss := RuleSet.derives_of_misses d.skipBlanks_skipBlanks hop
  exact ⟨_, .node hr.define (.seq ht (.never (.seqLeft hmiss))),
    (hr.expr _ _).trans (OfText.chain_one he _ _)⟩

theorem predicate (h : Yields .additive c d e)
    (hmiss : Phrase.predicateTail.misses (cql2.misses 2 d.skipBlanks.rest) = true) :
    Yields .predicate c d.skipBlanks e := by
  obtain ⟨t, ht, he⟩ := h
  have htail : Derives cql2 (.phrase .predicateTail) d.skipBlanks none :=
    (Phrase.derives_of_misses d.skipBlanks_skipBlanks
      (fun _ => RuleSet.derives_of_misses d.skipBlanks_skipBlanks) _).1 hmiss
  exact ⟨_, .node rfl (.seq ht (.absent htail)), he⟩

theorem unnegated (h : Yields .predicate c d e)
    (hnot : Derives cql2 (.phrase (.rule .kwNot)) c none) : Yields .negation c d e := by
  obtain ⟨t, ht, he⟩ := h
  exact ⟨_, .node rfl (.choiceRight (.seqLeft hnot) ht), OfText.expr_unnegated he _⟩

theorem expression (h : Yields .disjunction c d e) : Yields .expression c d e := by
  obtain ⟨t, ht, he⟩ := h
  exact ⟨_, .node rfl ht, he⟩

theorem ofText (h : Yields .unary (Cursor.ofText text.toList).skipBlanks d e)
    (hnot : Derives cql2 (.phrase (.rule .kwNot)) (Cursor.ofText text.toList).skipBlanks none)
    (hd : d.skipBlanks.rest = []) : Expr.ofText text = .ok e := by
  have hmiss {op : Rule} (hop : cql2.misses 1 [] op = true) :
      cql2.misses 1 d.skipBlanks.skipBlanks.rest op = true := by
    rwa [d.skipBlanks_skipBlanks, hd]
  have hmultiplicative := h.chain chains_multiplicative (by rw [hd]; rfl)
  have hadditive := hmultiplicative.chain chains_additive (hmiss rfl)
  rw [d.skipBlanks_skipBlanks] at hadditive
  have hpredicate := hadditive.predicate (by rw [d.skipBlanks_skipBlanks, hd]; rfl)
  rw [d.skipBlanks_skipBlanks] at hpredicate
  have hconjunction := (hpredicate.unnegated hnot).chain chains_conjunction (hmiss rfl)
  rw [d.skipBlanks_skipBlanks] at hconjunction
  have hdisjunction := hconjunction.chain chains_disjunction (hmiss rfl)
  rw [d.skipBlanks_skipBlanks] at hdisjunction
  obtain ⟨t, ht, he⟩ := hdisjunction.expression
  exact (ofText_of_derives ht (by rw [d.skipBlanks_skipBlanks, hd])).trans he

theorem primary (n : Nat) (hn : primaryRules[n]? = some r)
    (hmiss : ∀ q ∈ .minus :: primaryRules.take n, Derives cql2 (.phrase (.rule q)) c none)
    (h : Yields r c d e) : Yields .unary c d e := by
  obtain ⟨t, ht, he⟩ := h
  obtain ⟨hminus, hmiss⟩ := List.forall_mem_cons.1 hmiss
  have hprimary := derives_anyOf_of_getElem? n hn hmiss ht
  exact ⟨_, .node rfl (.choiceRight (.seqLeft hminus) hprimary), OfText.expr_unsigned he _⟩

end Yields

namespace Spells

theorem primary (n : Nat) (hn : primaryRules[n]? = some r)
    (hmiss : ∀ q ∈ .minus :: primaryRules.take n, Derives cql2 (.phrase (.rule q)) c none)
    (h : Spells r c d e) : Spells .unary c d e :=
  h.lift fun _ he => he.primary n hn hmiss

theorem unary (h : Spells .parenthesized c d e) (hc : c.rest = '(' :: k) : Spells .unary c d e :=
  h.primary 10 rfl (RuleSet.derives_of_front (n := 3) (.minus :: primaryRules.take 10) hc rfl rfl)

theorem chain (h : Spells item c d e) (hr : Chains r op item)
    (hop : cql2.misses 1 d.skipBlanks.rest op = true) : Spells r c d.skipBlanks e :=
  h.lift fun _ he => he.chain hr hop

theorem chainPair (h : Spells item c d e) (hr : Chains r op item)
    (hp : cql2.define op = .token p) (hs : p.scan d.skipBlanks.rest = some (lexeme, rest))
    (hop : BinaryOp.ofToken? (.ofList lexeme) = some o)
    (h' : Spells item (d.skipBlanks.moveTo lexeme rest).skipBlanks d' e')
    (hend : cql2.misses 1 d'.skipBlanks.rest op = true) :
    Spells r c d' (.binary .zero o e e') := by
  obtain ⟨t, f, ht, hf, rfl⟩ := h
  obtain ⟨t', f', ht', hf', rfl⟩ := h'
  have hmiss := RuleSet.derives_of_misses d'.skipBlanks_skipBlanks hend
  exact ⟨_, _, .node hr.define (.seq ht (.many (.seq (.token hp hs) ht') (.done (.seqLeft hmiss)))),
    (hr.expr _ _).trans (OfText.chain_two hf hf' hop _ _ _ _), rfl⟩

theorem predicate (h : Spells .additive c d e)
    (hmiss : Phrase.predicateTail.misses (cql2.misses 2 d.skipBlanks.rest) = true) :
    Spells .predicate c d.skipBlanks e :=
  h.lift fun _ he => he.predicate hmiss

theorem unnegated (h : Spells .predicate c d e)
    (hnot : Derives cql2 (.phrase (.rule .kwNot)) c none) : Spells .negation c d e :=
  h.lift fun _ he => he.unnegated hnot

theorem negation (h : Spells .predicate c d e) (hc : c.rest = '(' :: k) :
    Spells .negation c d e :=
  h.unnegated (.noToken rfl (by rw [hc]; rfl))

theorem not (hc : (Pattern.keyword "not").scan c.rest = some (lexeme, rest))
    (h : Spells .negation (c.moveTo lexeme rest).skipBlanks d e) :
    Spells .negation c d (.unary .zero .not e) := by
  obtain ⟨t, e', ht, he, rfl⟩ := h
  exact ⟨_, _, .node rfl (.choiceLeft (.seq (.token rfl hc) ht)),
    OfText.expr_negation he _ _ _, rfl⟩

theorem expression (h : Spells .disjunction c d e) : Spells .expression c d e :=
  h.lift fun _ he => he.expression

end Spells

/-- Whether neither an operator nor the rest of a predicate stands at the front of a text. -/
def endsOperand (cs : List Char) : Bool :=
  cql2.misses 1 cs .mulOp && cql2.misses 1 cs .addOp &&
    Phrase.predicateTail.misses (cql2.misses 2 cs)

/-- A filter in parentheses is an operand, unless something follows that takes it into a greater
one. -/
theorem spells_negation (h : Expr.ofText text = .ok e)
    (hc : c.rest = '(' :: (text.toList ++ ')' :: k))
    (hk : endsOperand (k.dropWhile isBlank) = true) :
    ∃ d, d.rest = k.dropWhile isBlank ∧ d.skipBlanks = d ∧
      Spells .negation c d (.group .zero e.unplaced) := by
  obtain ⟨d, rfl, hparen⟩ := spells_parenthesized h hc
  simp only [endsOperand, Bool.and_eq_true] at hk
  obtain ⟨⟨hmul, hadd⟩, htail⟩ := hk
  have hd := d.skipBlanks_skipBlanks
  have hmultiplicative : Spells .multiplicative c d.skipBlanks _ :=
    (hparen.unary hc).chain chains_multiplicative hmul
  have hadditive : Spells .additive c d.skipBlanks.skipBlanks _ :=
    hmultiplicative.chain chains_additive (by rw [hd]; exact hadd)
  rw [hd] at hadditive
  have hpredicate := hadditive.predicate (by rw [hd]; exact htail)
  rw [hd] at hpredicate
  exact ⟨d.skipBlanks, rfl, hd, hpredicate.negation hc⟩

theorem Spells.whole (h : Spells .conjunction (Cursor.ofText text.toList).skipBlanks d e)
    (hd : d.skipBlanks.rest = []) : ∃ e', Expr.ofText text = .ok e' ∧ e'.unplaced = e := by
  have hdisjunction := h.chain chains_disjunction (by rw [hd]; rfl)
  exact hdisjunction.expression.ofText (by rw [d.skipBlanks_skipBlanks, hd])

theorem ofText_and (h : Expr.ofText text = .ok e) (h' : Expr.ofText text' = .ok e') :
    ∃ f, Expr.ofText ("(" ++ text ++ ") AND (" ++ text' ++ ")") = .ok f ∧
      f.unplaced = .binary .zero .and (.group .zero e.unplaced) (.group .zero e'.unplaced) := by
  have htext : (Cursor.ofText ("(" ++ text ++ ") AND (" ++ text' ++ ")").toList).skipBlanks.rest =
      '(' :: (text.toList ++ ')' :: (" AND (".toList ++ (text'.toList ++ [')']))) := by
    simp [Cursor.skipBlanks, Cursor.ofText, Cursor.moveTo, isBlank]
  obtain ⟨d, hd, hblank, hleft⟩ := spells_negation h htext rfl
  have hand : (Pattern.keyword "and").scan d.skipBlanks.rest =
      some ("AND".toList, " (".toList ++ (text'.toList ++ [')'])) := by
    rw [hblank, hd]
    rfl
  obtain ⟨d', hd', hblank', hright⟩ := spells_negation h'
    (c := (d.skipBlanks.moveTo _ (" (".toList ++ (text'.toList ++ [')']))).skipBlanks) rfl rfl
  rw [← hblank'] at hd'
  exact (hleft.chainPair chains_conjunction rfl hand rfl hright (by rw [hd']; rfl)).whole hd'

theorem ofText_or (h : Expr.ofText text = .ok e) (h' : Expr.ofText text' = .ok e') :
    ∃ f, Expr.ofText ("(" ++ text ++ ") OR (" ++ text' ++ ")") = .ok f ∧
      f.unplaced = .binary .zero .or (.group .zero e.unplaced) (.group .zero e'.unplaced) := by
  have htext : (Cursor.ofText ("(" ++ text ++ ") OR (" ++ text' ++ ")").toList).skipBlanks.rest =
      '(' :: (text.toList ++ ')' :: (" OR (".toList ++ (text'.toList ++ [')']))) := by
    simp [Cursor.skipBlanks, Cursor.ofText, Cursor.moveTo, isBlank]
  obtain ⟨d, hd, hblank, hleft⟩ := spells_negation h htext rfl
  have hleft := hleft.chain chains_conjunction (by rw [hblank, hd]; rfl)
  have hor : (Pattern.keyword "or").scan d.skipBlanks.skipBlanks.rest =
      some ("OR".toList, " (".toList ++ (text'.toList ++ [')'])) := by
    rw [hblank, hblank, hd]
    rfl
  obtain ⟨d', hd', hblank', hright⟩ := spells_negation h'
    (c := (d.skipBlanks.skipBlanks.moveTo _ (" (".toList ++ (text'.toList ++ [')']))).skipBlanks)
    rfl rfl
  have hright := hright.chain chains_conjunction (by rw [hblank', hd']; rfl)
  rw [← hblank', ← hblank'] at hd'
  have hjoined := hleft.chainPair chains_disjunction rfl hor rfl hright (by rw [hd']; rfl)
  exact hjoined.expression.ofText hd'

theorem ofText_not (h : Expr.ofText text = .ok e) :
    ∃ f, Expr.ofText ("NOT (" ++ text ++ ")") = .ok f ∧
      f.unplaced = .unary .zero .not (.group .zero e.unplaced) := by
  have htext : (Cursor.ofText ("NOT (" ++ text ++ ")").toList).skipBlanks.rest =
      "NOT (".toList ++ (text.toList ++ [')']) := by
    simp [Cursor.skipBlanks, Cursor.ofText, Cursor.moveTo, isBlank]
  have hnot : (Pattern.keyword "not").scan
      (Cursor.ofText ("NOT (" ++ text ++ ")").toList).skipBlanks.rest =
      some ("NOT".toList, " (".toList ++ (text.toList ++ [')'])) := by
    rw [htext]
    rfl
  obtain ⟨d, hd, hblank, hgroup⟩ := spells_negation h
    (c := (Cursor.moveTo _ _ (" (".toList ++ (text.toList ++ [')']))).skipBlanks) rfl rfl
  rw [← hblank] at hd
  have hconjunction := (hgroup.not hnot).chain chains_conjunction (by rw [hd]; rfl)
  exact hconjunction.whole (by rw [hblank, hd]; rfl)

/-- Filters in parentheses compose: a text that is a filter neither takes in the parentheses around
it nor breaks out of them. -/
theorem Expr.ofText_wrapped (h : Expr.ofText text = .ok e) (h' : Expr.ofText text' = .ok e') :
    (∃ f, Expr.ofText ("(" ++ text ++ ") AND (" ++ text' ++ ")") = .ok f ∧
      f.unplaced = .binary .zero .and (.group .zero e.unplaced) (.group .zero e'.unplaced)) ∧
    (∃ f, Expr.ofText ("(" ++ text ++ ") OR (" ++ text' ++ ")") = .ok f ∧
      f.unplaced = .binary .zero .or (.group .zero e.unplaced) (.group .zero e'.unplaced)) ∧
    ∃ f, Expr.ofText ("NOT (" ++ text ++ ")") = .ok f ∧
      f.unplaced = .unary .zero .not (.group .zero e.unplaced) :=
  ⟨ofText_and h h', ofText_or h h', ofText_not h⟩

/-- With a parenthesis in a quoted name and in a string, and with a disjunction that would bind less
tightly than the conjunction around it. -/
theorem Expr.ofText_wrapped_quoted :
    ∃ e e' f, Expr.ofText "\"a(\" = ')'" = .ok e ∧ Expr.ofText "b OR c" = .ok e' ∧
      Expr.ofText ("(" ++ "\"a(\" = ')'" ++ ") AND (" ++ "b OR c" ++ ")") = .ok f ∧
      f.unplaced = .binary .zero .and (.group .zero e.unplaced) (.group .zero e'.unplaced) := by
  have hread (text : String) (h : (Expr.ofText text).isOk = true) :
      ∃ e, Expr.ofText text = .ok e := by
    cases hr : Expr.ofText text with
    | ok e => exact ⟨e, rfl⟩
    | error =>
      rw [hr] at h
      cases h
  obtain ⟨e, he⟩ := hread "\"a(\" = ')'" (by decide +kernel)
  obtain ⟨e', he'⟩ := hread "b OR c" (by decide +kernel)
  obtain ⟨⟨f, hf, hplace⟩, -⟩ := Expr.ofText_wrapped he he'
  exact ⟨e, e', f, he, he', hf, hplace⟩

end FeatureFilter
