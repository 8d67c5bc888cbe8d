import FeatureFilter.Proofs.Filter.PrimaryText

namespace FeatureFilter

open Grammar
open Text (Span)

def relationTokens : List (List Char) :=
  ["NOT".toList, "LIKE".toList, "BETWEEN".toList, "IN".toList, "IS".toList] ++
    (ComparisonOp.all.map fun op => op.name.toList) ++ SpatialOp.all.map fun op => op.name.toList

def predicateFollowers : List (List Char) := "AND".toList :: "OR".toList :: closers

/-- The tokens that may stand behind what a rule takes. -/
def followers : Rule → List (List Char)
  | .conjunction => "OR".toList :: closers
  | .negation => predicateFollowers
  | .predicate => predicateFollowers
  | .additive => relationTokens ++ predicateFollowers
  | .multiplicative => [['+'], ['-']] ++ (relationTokens ++ predicateFollowers)
  | .unary => [['*'], ['/'], ['+'], ['-']] ++ (relationTokens ++ predicateFollowers)
  | _ => closers

theorem solid_of_mem_followers (r : Rule) : ∀ t ∈ followers r, Solid t := by
  unfold followers
  split <;> decide

/-- A tree that stands for an operator. -/
def MeansOp (op : BinaryOp) (t : ParseTree Rule) : Prop := ∀ s, OfText.operator s t = .ok op

theorem takes_keywordOperator (hr : cql2.define r = .token (.keyword w)) {op : BinaryOp}
    (ht : Spelling w op.token) (hop : op.name = w) (follow : List (List Char) → Prop) :
    Takes (.rule r) [op.token] follow (Sole (MeansOp op)) := by
  apply (Takes.keyword hr ht follow).sole
  rintro _ ⟨s, rfl⟩
  have htoken : BinaryOp.ofToken? (.ofList op.token) = some op := by
    apply BinaryOp.ofToken?_eq_some
    rw [Text.lower, String.toList_ofList, ht.2.2, String.ofList_toList, hop]
  exact OfText.operator_token htoken

theorem takes_operator (hr : cql2.define r = .token p) {op : BinaryOp} (ht : Solid op.token)
    (hp : ∀ rest, Apart op.token rest → p.scan (op.token ++ rest) = some (op.token, rest))
    (hop : BinaryOp.ofToken? (.ofList op.token) = some op) (follow : List (List Char) → Prop) :
    Takes (.rule r) [op.token] follow (Sole (MeansOp op)) := by
  apply (Takes.token hr ht hp follow).sole
  rintro _ ⟨s, rfl⟩
  exact OfText.operator_token hop

theorem takes_comparisonOp (op : ComparisonOp) (follow : List (List Char) → Prop) :
    Takes (.rule .comparisonOp) [(BinaryOp.comparison op).token] follow
      (Sole (MeansOp (.comparison op))) := by
  refine takes_operator rfl ?_ ?_ ?_ follow
  · cases op <;> decide
  · intro rest ha
    cases op with
    | equal | notEqual | lessOrEqual | greaterOrEqual => rfl
    | less =>
      -- The longer signs are tried first; they fail because what would join does not follow.
      cases rest with
      | nil => rfl
      | cons b rest =>
        have hnot := Pattern.scan_pair_of_ne '<' (ha.ne_of_joins (c := '>') rfl) rest
        have hle := Pattern.scan_pair_of_ne '<' (ha.ne_of_joins (c := '=') rfl) rest
        exact (Pattern.scan_choice_of_none hnot _).trans (Pattern.scan_choice_of_none hle _)
    | greater =>
      cases rest with
      | nil => rfl
      | cons b rest =>
        have hge := Pattern.scan_pair_of_ne '>' (ha.ne_of_joins (c := '=') rfl) rest
        exact Pattern.scan_choice_of_none hge (.choice (.str "<") (.choice (.str ">") (.str "=")))
  · cases op <;> rfl

theorem takes_spatialOp (op : SpatialOp) (follow : List (List Char) → Prop) :
    Takes (.rule .spatialOp) [(BinaryOp.spatial op).token] follow
      (Sole (MeansOp (.spatial op))) := by
  refine takes_operator rfl ?_ ?_ ?_ follow
  · cases op <;> decide
  · intro rest ha
    have hends : EndsWord rest := by
      cases op <;> exact ha.endsWord rfl rfl
    have hfree : (Pattern.unless Pattern.identChar).scan rest = some ([], rest) :=
      Pattern.scan_unless.2 ⟨Pattern.scan_identChar_of_endsWord hends, rfl⟩
    have hword : (Pattern.anyOf (Pattern.spatialWords.map fun w => .anyCase w.toList)).scan
        ((BinaryOp.spatial op).token ++ rest) = some ((BinaryOp.spatial op).token, rest) := by
      cases op <;> rfl
    rw [Pattern.scan_seq_of_some hword, hfree]
    simp only [Option.map_some, List.append_nil]
  · cases op <;> rfl

/-- The operator and the operands of a rule for a chain. -/
def Grammar.Rule.chain? : Rule → Option (Rule × Rule)
  | .disjunction => some (.kwOr, .conjunction)
  | .conjunction => some (.kwAnd, .negation)
  | .additive => some (.addOp, .multiplicative)
  | .multiplicative => some (.mulOp, .unary)
  | _ => none

theorem chains_of_chain? (hr : r.chain? = some (op, item)) : Chains r op item := by
  unfold Grammar.Rule.chain? at hr
  split at hr <;> cases hr
  · exact chains_disjunction
  · exact chains_conjunction
  · exact chains_additive
  · exact chains_multiplicative

theorem exists_operator (h : o.Joins r item) : ∃ op, r.chain? = some (op, item) ∧
    o.token ∈ followers item ∧
    Takes (.rule op) [o.token] (fun _ => True) (Sole (MeansOp o)) := by
  cases h with
  | or =>
    have hspelling : Spelling "or" BinaryOp.or.token := ⟨List.cons_ne_nil _ _, rfl, rfl⟩
    exact ⟨_, rfl, by decide, takes_keywordOperator rfl hspelling rfl _⟩
  | and =>
    have hspelling : Spelling "and" BinaryOp.and.token := ⟨List.cons_ne_nil _ _, rfl, rfl⟩
    exact ⟨_, rfl, by decide, takes_keywordOperator rfl hspelling rfl _⟩
  | add | subtract | multiply | divide =>
    exact ⟨_, rfl, by decide, takes_operator rfl ⟨_, _, rfl, rfl⟩ (fun _ _ => rfl) rfl _⟩

/-- What may follow a chain may follow its last operand. -/
theorem followers_subset (hr : r.chain? = some (op, item)) :
    ∀ t ∈ followers r, t ∈ followers item := by
  unfold Grammar.Rule.chain? at hr
  split at hr <;> cases hr <;> decide

theorem refuses_operator (hr : r.chain? = some (op, item)) (hks : Stops (followers r) ks) :
    Refuses (.rule op) ks := by
  have hscan {p : Pattern} (hop : cql2.define op = .token p) (hnil : p.scan [] = none)
      (hp : ∀ t ∈ followers r, ∀ rest, p.scan (t ++ rest) = none) : Refuses (.rule op) ks :=
    .of_stops hop hnil (solid_of_mem_followers r) hp hks
  unfold Grammar.Rule.chain? at hr
  split at hr <;> cases hr
  · refine hscan rfl rfl ?_
    simp only [followers, closers, List.forall_mem_cons]
    exact ⟨fun _ => rfl, fun _ => rfl, nofun⟩
  · refine hscan rfl rfl ?_
    simp only [followers, closers, List.forall_mem_cons]
    exact ⟨fun _ => rfl, fun _ => rfl, fun _ => rfl, nofun⟩
  · exact hscan rfl rfl (Pattern.single_sign.scan_of_front _ (by decide))
  · have hmul := (Pattern.Single.text '*').choice (.text '/')
    exact hscan rfl rfl (hmul.scan_of_front _ (by decide))

/-- The operands up to some point, where more may follow, and the filter that they stand for. -/
def Joined (r op item : Rule) (e : Expr) : Prop :=
  ∀ (c : Cursor) (ks : List (List Char)), Laid (e.tokens ++ ks) c.rest →
    Stops (followers item) ks → ∃ d ts, Laid ks d.rest ∧
      Items (.rule op) (.rule item) c.skipBlanks d ts ∧
      ∀ s, ∃ e', e'.unplaced = e.unplaced ∧
        ∀ us, OfText.chain r s (ts ++ us) = OfText.chainFrom s e' us

namespace Joined

theorem one (h : Takes (.rule item) e.tokens (Stops (followers item)) (Sole (Means e))) :
    Joined r op item e := by
  intro c ks hl hks
  obtain ⟨d, _, hd, ht, t, rfl, e', he, hplace⟩ := h c ks hl hks
  refine ⟨d, [t], hd, .one ht, fun s => ⟨e', hplace, fun us => ?_⟩⟩
  rw [List.singleton_append, OfText.chain, he]
  rfl

theorem join (hleft : Joined r op item left)
    (hop : Takes (.rule op) [o.token] (fun _ => True) (Sole (MeansOp o)))
    (hmem : o.token ∈ followers item)
    (hright : Takes (.rule item) right.tokens (Stops (followers item)) (Sole (Means right)))
    (s : Span) : Joined r op item (.binary s o left right) := by
  intro c ks hl hks
  rw [Expr.tokens, List.append_assoc, List.cons_append] at hl
  obtain ⟨d, ts, hd, hitems, hchain⟩ := hleft c _ hl (.cons hmem _)
  obtain ⟨d₁, _, hd₁, hsep, u, rfl, hu⟩ := hop d (right.tokens ++ ks) hd trivial
  obtain ⟨d₂, _, hd₂, hitem, t, rfl, e', he, hplace⟩ := hright d₁ ks hd₁ hks
  refine ⟨d₂, _, hd₂, hitems.snoc hsep hitem, fun s' => ?_⟩
  obtain ⟨l, hlplace, hl⟩ := hchain s'
  refine ⟨.binary s' o l e', ?_, fun us => ?_⟩
  · rw [Expr.unplaced, Expr.unplaced, hlplace, hplace]
  · rw [List.append_assoc, hl, List.singleton_append, List.cons_append, List.singleton_append,
      OfText.chainFrom, hu s', he]
    rfl

theorem takes (h : Joined r op item e) (hr : r.chain? = some (op, item)) :
    Takes (.rule r) e.tokens (Stops (followers r)) (Sole (Means e)) := by
  intro c ks hl hks
  obtain ⟨d, ts, hd, hitems, hchain⟩ := h c ks hl (hks.mono (followers_subset hr))
  obtain ⟨d', hd', hts⟩ := hitems.derives (refuses_operator hr hks d hd)
  have hchains := chains_of_chain? hr
  refine ⟨d', _, ?_, .node hchains.define hts, _, rfl, ?_⟩
  · rcases hd' with rfl | rfl
    · exact hd
    · exact hd.skipBlanks fun t ht => solid_of_mem_followers r t (hks t ht)
  · obtain ⟨e', hplace, he⟩ := hchain (.between c.skipBlanks.position d'.position)
    have hwhole := he []
    rw [List.append_nil, OfText.chainFrom] at hwhole
    exact ⟨e', (hchains.expr _ _).trans hwhole, hplace⟩

end Joined

theorem Grammar.Takes.exists_node (hr : cql2.define r = .phrase x)
    (h : Takes (.rule r) ts follow (Sole P)) :
    Takes (.rule r) ts follow (Sole fun t => ∃ s us, t = .node r s us ∧ P t) := by
  intro c ks hl hks
  obtain ⟨d, _, hd, ht, t, rfl, hp⟩ := h c ks hl hks
  refine ⟨d, _, hd, ht, t, rfl, ?_⟩
  cases ht with
  | token hr' => cases hr.symm.trans hr'
  | node => exact ⟨_, _, rfl, hp⟩

theorem Grammar.Refuses.seqRight (hx : Takes x ts follow P) (hks : follow ks) (hy : Refuses y ks) :
    Refuses (.seq x y) (ts ++ ks) := by
  intro c hl
  obtain ⟨d, trees, hd, ht, -⟩ := hx c ks hl hks
  exact .seqRight ht (hy d hd)

/-- What the parts of a comparison behind its subject stand for, without a negation. -/
def Carries (es : List Expr) (ts : List (ParseTree Rule)) : Prop :=
  (∃ es', OfText.operands ts = .ok es' ∧ Expr.unplacedEach es' = Expr.unplacedEach es) ∧
    ts.any (OfText.isToken .kwNot) = false

namespace Carries

theorem nil : Carries [] [] := ⟨⟨[], rfl, rfl⟩, rfl⟩

theorem token (h : Carries es ts) (hr : (r == .kwNot) = false) (s : Span) (lexeme : List Char) :
    Carries es (.token r s lexeme :: ts) := by
  obtain ⟨hes, hnot⟩ := h
  refine ⟨hes, ?_⟩
  rw [List.any_cons, OfText.isToken, hr, hnot]
  rfl

theorem node (he : Means e (.node r s us)) (h : Carries es ts) :
    Carries (e :: es) (.node r s us :: ts) := by
  obtain ⟨e', he, hplace⟩ := he
  obtain ⟨⟨es', hes, hplaces⟩, hnot⟩ := h
  refine ⟨⟨e' :: es', ?_, ?_⟩, hnot⟩
  · rw [OfText.operands, he, hes]
    rfl
  · rw [Expr.unplacedEach, Expr.unplacedEach, hplace, hplaces]

end Carries

/-- An operand is read where something that may follow it stands behind it. -/
def Operand (e : Expr) : Prop :=
  Takes .operand e.tokens (Stops (followers .additive))
    (Sole fun t => ∃ s us, t = .node .additive s us ∧ Means e t)

theorem takes_negation (ht : Solid t)
    (hmiss : ∀ rest, (Pattern.keyword "not").scan (t ++ rest) = none) (negated : Bool) :
    Takes (.optional (.rule .kwNot)) (negationTokens negated) (Stops [t]) fun trees =>
      trees.any (OfText.isToken .kwNot) = negated ∧
        ∀ us, OfText.operands (trees ++ us) = OfText.operands us := by
  cases negated with
  | true =>
    have hnot := Takes.keyword (r := .kwNot) (t := "NOT".toList) rfl ⟨nofun, rfl, rfl⟩ (Stops [t])
    apply hnot.optional.mono
    rintro trees ⟨_, rfl, s, rfl⟩
    exact ⟨rfl, fun _ => rfl⟩
  | false =>
    have hsolid : ∀ u ∈ [t], Solid u := List.forall_mem_singleton.2 ht
    have habsent : Takes (.optional (.rule .kwNot)) [] (Stops [t]) (· = []) :=
      .absent (fun _ hks u hu => hsolid u (hks u hu)) fun _ hks =>
        .of_stops rfl rfl hsolid (List.forall_mem_singleton.2 hmiss) hks
    apply habsent.mono
    rintro trees rfl
    exact ⟨rfl, fun _ => rfl⟩

/-- A rule for the comparison of a subject with operands: a negation or none, a keyword, and what
stands behind it. -/
structure Compares (r : Rule) (op : AdvancedOp) (kw : Rule) (w : String) (t : List Char)
    (y : Phrase Rule) : Prop where
  define : cql2.define r = .phrase (.seq (.optional (.rule .kwNot)) (.seq (.rule kw) y))
  keyword : cql2.define kw = .token (.keyword w)
  kw_ne : (kw == .kwNot) = false
  spelling : Spelling w t
  scan_not : ∀ rest, (Pattern.keyword "not").scan (t ++ rest) = none
  follower : t ∈ followers .additive
  read : ∀ s subject s' us, OfText.predicate s subject (.node r s' us) = (do
    return .advanced s op (us.any (OfText.isToken .kwNot)) (subject :: (← OfText.operands us)))

theorem compares_like : Compares .likeTail .like .kwLike "like" "LIKE".toList .operand where
  define := rfl
  keyword := rfl
  kw_ne := rfl
  spelling := ⟨nofun, rfl, rfl⟩
  scan_not _ := rfl
  follower := by decide
  read _ _ _ _ := rfl

theorem compares_between : Compares .betweenTail .between .kwBetween "between" "BETWEEN".toList
    (.inOrder [.operand, .rule .kwAnd, .operand]) where
  define := rfl
  keyword := rfl
  kw_ne := rfl
  spelling := ⟨nofun, rfl, rfl⟩
  scan_not _ := rfl
  follower := by decide
  read _ _ _ _ := rfl

theorem compares_in : Compares .inTail .isIn .kwIn "in" "IN".toList (.tuple .operand) where
  define := rfl
  keyword := rfl
  kw_ne := rfl
  spelling := ⟨nofun, rfl, rfl⟩
  scan_not _ := rfl
  follower := by decide
  read _ _ _ _ := rfl

namespace Compares

theorem takes_rule (hr : Compares r op kw w t y) (hy : Takes y ts follow (Carries es))
    (negated : Bool) :
    Takes (.rule r) (negationTokens negated ++ t :: ts) follow (Sole fun u => ∃ s us,
      u = .node r s us ∧ us.any (OfText.isToken .kwNot) = negated ∧
        ∃ es', OfText.operands us = .ok es' ∧ Expr.unplacedEach es' = Expr.unplacedEach es) := by
  have hrest := (Takes.keyword hr.keyword hr.spelling fun _ => True).seq hy fun _ _ => trivial
  have hall := (takes_negation hr.spelling.solid hr.scan_not negated).seq hrest fun ks _ =>
    .cons (List.mem_singleton_self _) _
  apply Takes.rule hr.define hall
  rintro s us ⟨v, _, rfl, ⟨hneg, hv⟩, _, x, rfl, ⟨_, rfl, s', rfl⟩, hx⟩
  obtain ⟨hes, hnone⟩ := hx.token hr.kw_ne s' t
  refine ⟨s, _, rfl, ?_, ?_⟩
  · rw [List.any_append, hneg, List.singleton_append, hnone, Bool.or_false]
  · rw [hv]
    exact hes

theorem refuses (hr : Compares r op kw w t y) (hu : Solid u)
    (hnot : ∀ rest, (Pattern.keyword "not").scan (u ++ rest) = none)
    (hmiss : ∀ rest, (Pattern.keyword w).scan (u ++ rest) = none) (negated : Bool)
    (ks : List (List Char)) : Refuses (.rule r) (negationTokens negated ++ u :: ks) := by
  have hword : Refuses (.seq (.rule kw) y) (u :: ks) := by
    intro c hl
    obtain ⟨rest, hrest, -, -⟩ := hl.exists_front hu
    refine .seqLeft (.noToken hr.keyword ?_)
    rw [hrest]
    exact hmiss rest
  have hstops : Stops [u] (u :: ks) := .cons (List.mem_singleton_self _) ks
  intro c hl
  exact .noNode hr.define (Refuses.seqRight (takes_negation hu hnot negated) hstops hword c hl)

end Compares

theorem carries_of_forall₂
    (h : List.Forall₂ (fun e t => ∃ s us, t = .node .additive s us ∧ Means e t) es ts) :
    Carries es ts := by
  induction h with
  | nil => exact .nil
  | cons he _ ih =>
    obtain ⟨s, us, rfl, he⟩ := he
    exact .node he ih

namespace Operand

theorem last (h : Operand e) : Takes .operand e.tokens (Stops (followers .predicate))
    (Sole fun t => ∃ s us, t = .node .additive s us ∧ Means e t) :=
  Takes.narrow h fun _ hks => hks.mono fun _ => List.mem_append_right _

theorem carries (h : Operand e) :
    Takes .operand e.tokens (Stops (followers .predicate)) (Carries [e]) := by
  apply h.last.mono
  rintro trees ⟨_, rfl, s, us, rfl, he⟩
  exact .node he .nil

theorem carries_between (hlower : Operand lower) (hupper : Operand upper) :
    Takes (.inOrder [.operand, .rule .kwAnd, .operand])
      (["AND".toList].intercalate [lower.tokens, upper.tokens]) (Stops (followers .predicate))
      (Carries [lower, upper]) := by
  have hand := Takes.keyword (r := .kwAnd) (t := "AND".toList) rfl ⟨nofun, rfl, rfl⟩ fun _ => True
  have hrest := hand.seq hupper.carries fun _ _ => trivial
  have hall := hlower.seq hrest fun ks _ => .cons (by decide) _
  have htokens : ["AND".toList].intercalate [lower.tokens, upper.tokens] =
      lower.tokens ++ (["AND".toList] ++ upper.tokens) := by
    simp [List.intercalate]
  rw [htokens]
  apply hall.mono
  rintro trees ⟨_, _, rfl, ⟨_, rfl, s, us, rfl, he⟩, _, v, rfl, ⟨_, rfl, s', rfl⟩, hv⟩
  exact .node he (hv.token rfl s' _)

theorem carries_tuple (hne : es ≠ []) (h : ∀ e ∈ es, Operand e)
    (follow : List (List Char) → Prop) :
    Takes (.tuple .operand) (tupleTokens (es.map Expr.tokens)) follow (Carries es) := by
  have hclosers : ∀ t ∈ closers, t ∈ followers .additive := by decide
  have hitem : ∀ e ∈ es, Takes .operand e.tokens (Stops closers)
      (Sole fun t => ∃ s us, t = .node .additive s us ∧ Means e t) :=
    fun e he => (h e he).narrow fun ks hks => hks.mono hclosers
  exact (takes_tuple hne hitem follow).mono fun _ => carries_of_forall₂

end Operand

theorem refuses_relationTail (ht : Solid t)
    (hmiss : ∀ rest, [Rule.comparisonTail, .spatialTail].all (cql2.misses 2 (t ++ rest)) = true)
    (negated : Bool) (ks : List (List Char)) : ∀ q ∈ [Rule.comparisonTail, .spatialTail],
      Refuses (.rule q) (negationTokens negated ++ t :: ks) := by
  intro q hq
  cases negated with
  | false => exact .of_misses ht (fun rest => List.all_eq_true.1 (hmiss rest) q hq) ks
  | true =>
    have hall (rest : List Char) : [Rule.comparisonTail, .spatialTail].all
        (cql2.misses 2 ("NOT".toList ++ rest)) = true := rfl
    exact .of_misses ⟨_, _, rfl, rfl⟩ (fun rest => List.all_eq_true.1 (hall rest) q hq) _

/-- A tree behind a subject that stands for a filter, whatever the subject's places are. -/
def Completes (subject e : Expr) (t : ParseTree Rule) : Prop :=
  ∀ s subject', subject'.unplaced = subject.unplaced →
    ∃ e', OfText.predicate s subject' t = .ok e' ∧ e'.unplaced = e.unplaced

theorem takes_tail (n : Nat) (hn : tailRules[n]? = some r)
    (hmiss : ∀ q ∈ tailRules.take n, ∀ ks, Refuses (.rule q) (ts ++ ks))
    (h : Takes (.rule r) ts follow P) : Takes .predicateTail ts follow P :=
  .anyOf n hn (fun q hq ks _ => hmiss q hq ks) h

/-- What may follow a predicate does not go on with it. -/
theorem refuses_predicateTail (hks : Stops (followers .predicate) ks) :
    Refuses .predicateTail ks := by
  have hmiss : ∀ t ∈ followers .predicate, ∀ rest,
      tailRules.all (cql2.misses 2 (t ++ rest)) = true := by
    simp only [followers, predicateFollowers, closers, List.forall_mem_cons]
    exact ⟨fun _ => rfl, fun _ => rfl, fun _ => rfl, fun _ => rfl, nofun⟩
  intro c hl
  have hrest : tailRules.all (cql2.misses 2 c.skipBlanks.rest) = true := by
    cases ks with
    | nil =>
      rw [hl.rest_skipBlanks_nil]
      rfl
    | cons t ks =>
      have ht := hks t rfl
      obtain ⟨rest, hrest, -, -⟩ := hl.exists_front (solid_of_mem_followers .predicate t ht)
      rw [hrest]
      exact hmiss t ht rest
  have hall : Derives cql2 (.phrase (.anyOf (tailRules.map .rule))) c.skipBlanks none :=
    derives_anyOf_none (List.cons_ne_nil _ _) fun q hq =>
      RuleSet.derives_of_misses c.skipBlanks_skipBlanks (List.all_eq_true.1 hrest q hq)
  exact hall

theorem takes_predicate (hsubject : Operand subject)
    (hts : ∀ ks, Stops (followers .additive) (ts ++ ks))
    (htail : Takes .predicateTail ts (Stops (followers .predicate)) (Sole (Completes subject e))) :
    Takes (.rule .predicate) (subject.tokens ++ ts) (Stops (followers .predicate))
      (Sole (Means e)) := by
  have hall := hsubject.seq htail.optional fun ks _ => hts ks
  apply Takes.rule rfl hall
  rintro s us ⟨_, _, rfl, ⟨t, rfl, _, _, -, e', he, hplace⟩, u, rfl, hu⟩
  obtain ⟨e'', he'', hplace'⟩ := hu s e' hplace
  refine ⟨e'', ?_, hplace'⟩
  show (do OfText.predicate s (← OfText.expr t) u) = _
  rw [he]
  exact he''

theorem takes_relate (n : Nat) (hn : tailRules[n]? = some r)
    (hr : cql2.define r = .phrase (.seq (.rule opRule) .operand)) {op : BinaryOp}
    (hread : ∀ s subject s' us, OfText.predicate s subject (.node r s' us) =
      OfText.related s s' subject us)
    (hmiss : ∀ q ∈ tailRules.take n, ∀ ks, Refuses (.rule q) (op.token :: ks))
    (hmem : op.token ∈ followers .additive)
    (hop : Takes (.rule opRule) [op.token] (fun _ => True)
      (Sole (MeansOp op)))
    (hleft : Operand left) (hright : Operand right) (s : Span) :
    Takes (.rule .predicate) (Expr.binary s op left right).tokens (Stops (followers .predicate))
      (Sole (Means (.binary s op left right))) := by
  have hall := hop.seq hright.last fun _ _ => trivial
  refine takes_predicate hleft (fun ks => .cons hmem _) (takes_tail n hn
    (fun q hq ks => hmiss q hq _) (.rule hr hall ?_))
  rintro s' us ⟨_, _, rfl, ⟨o, rfl, ho⟩, t, rfl, _, _, -, e', he, hplace⟩ s'' left' hleft'
  refine ⟨.binary s'' op left' e', ?_, ?_⟩
  · rw [hread, List.singleton_append, OfText.related, ho, he]
    rfl
  · rw [Expr.unplaced, Expr.unplaced, hleft', hplace]

theorem takes_comparison (op : ComparisonOp) (hleft : Operand left) (hright : Operand right)
    (s : Span) : Takes (.rule .predicate) (Expr.binary s (.comparison op) left right).tokens
      (Stops (followers .predicate)) (Sole (Means (.binary s (.comparison op) left right))) := by
  refine takes_relate 0 rfl rfl (fun _ _ _ _ => rfl) nofun ?_ (takes_comparisonOp op _) hleft
    hright s
  cases op <;> decide

theorem takes_spatial (op : SpatialOp) (hleft : Operand left) (hright : Operand right)
    (s : Span) : Takes (.rule .predicate) (Expr.binary s (.spatial op) left right).tokens
      (Stops (followers .predicate)) (Sole (Means (.binary s (.spatial op) left right))) := by
  have hsolid : Solid (BinaryOp.spatial op).token := by cases op <;> decide
  have hmiss (rest : List Char) :
      cql2.misses 2 ((BinaryOp.spatial op).token ++ rest) .comparisonTail = true := by
    cases op <;> rfl
  refine takes_relate 1 rfl rfl (fun _ _ _ _ => rfl) ?_ ?_ (takes_spatialOp op _) hleft hright s
  · exact List.forall_mem_singleton.2 fun ks => .of_misses hsolid hmiss ks
  · cases op <;> decide

theorem takes_advanced (n : Nat) (hn : tailRules[n]? = some r) (hr : Compares r op kw w t y)
    (hmiss : ∀ q ∈ tailRules.take n, ∀ ks, Refuses (.rule q) (negationTokens negated ++ t :: ks))
    (htokens : op.tokens (Expr.tokensEach es) = t :: ts)
    (hes : Takes y ts (Stops (followers .predicate)) (Carries es)) (hsubject : Operand subject)
    (s : Span) : Takes (.rule .predicate) (Expr.advanced s op negated (subject :: es)).tokens
      (Stops (followers .predicate)) (Sole (Means (.advanced s op negated (subject :: es)))) := by
  have hall : (Expr.advanced s op negated (subject :: es)).tokens =
      subject.tokens ++ (negationTokens negated ++ t :: ts) := by
    simp only [Expr.tokens, Expr.tokensEach, htokens]
  rw [hall]
  refine takes_predicate hsubject (fun ks => ?_) (takes_tail n hn (fun q hq ks => ?_)
    ((hr.takes_rule hes negated).sole ?_))
  · cases negated with
    | false => exact .cons hr.follower _
    | true => exact .cons (by decide) _
  · rw [List.append_assoc]
    exact hmiss q hq _
  · rintro _ ⟨s', us, rfl, hneg, es', hus, hplaces⟩ s'' subject' hplace
    refine ⟨.advanced s'' op negated (subject' :: es'), ?_, ?_⟩
    · rw [hr.read, hus, hneg]
      rfl
    · simp only [Expr.unplaced, Expr.unplacedEach, hplace, hplaces]

theorem takes_like (hsubject : Operand subject) (hpattern : Operand pattern) (negated : Bool)
    (s : Span) : Takes (.rule .predicate) (Expr.advanced s .like negated [subject, pattern]).tokens
      (Stops (followers .predicate))
      (Sole (Means (.advanced s .like negated [subject, pattern]))) := by
  have htokens : AdvancedOp.like.tokens (Expr.tokensEach [pattern]) =
      "LIKE".toList :: pattern.tokens := by
    simp only [AdvancedOp.tokens, Expr.tokensEach, List.flatten_singleton]
  refine takes_advanced 2 rfl compares_like ?_ htokens hpattern.carries hsubject s
  intro q hq ks
  exact refuses_relationTail ⟨_, _, rfl, rfl⟩ (fun _ => rfl) negated ks q hq

theorem takes_between (hsubject : Operand subject) (hlower : Operand lower)
    (hupper : Operand upper) (negated : Bool) (s : Span) :
    Takes (.rule .predicate) (Expr.advanced s .between negated [subject, lower, upper]).tokens
      (Stops (followers .predicate))
      (Sole (Means (.advanced s .between negated [subject, lower, upper]))) := by
  have hsolid : Solid "BETWEEN".toList := by decide
  have htokens : AdvancedOp.between.tokens (Expr.tokensEach [lower, upper]) =
      "BETWEEN".toList :: ["AND".toList].intercalate [lower.tokens, upper.tokens] := rfl
  refine takes_advanced 3 rfl compares_between ?_ htokens (hlower.carries_between hupper) hsubject s
  intro q hq ks
  have hq : q ∈ [Rule.comparisonTail, .spatialTail] ++ [.likeTail] := hq
  rcases List.mem_append.1 hq with hq | hq
  · exact refuses_relationTail hsolid (fun _ => rfl) negated ks q hq
  · cases List.mem_singleton.1 hq
    exact compares_like.refuses hsolid (fun _ => rfl) (fun _ => rfl) negated ks

theorem takes_in (hsubject : Operand subject) (hne : es ≠ []) (hes : ∀ e ∈ es, Operand e)
    (negated : Bool) (s : Span) :
    Takes (.rule .predicate) (Expr.advanced s .isIn negated (subject :: es)).tokens
      (Stops (followers .predicate))
      (Sole (Means (.advanced s .isIn negated (subject :: es)))) := by
  have hsolid : Solid "IN".toList := by decide
  have htokens : AdvancedOp.isIn.tokens (Expr.tokensEach es) =
      "IN".toList :: tupleTokens (es.map Expr.tokens) := by
    rw [AdvancedOp.tokens, Expr.tokensEach_eq_map]
  refine takes_advanced 4 rfl compares_in ?_ htokens (Operand.carries_tuple hne hes _) hsubject s
  intro q hq ks
  have hq : q ∈ [Rule.comparisonTail, .spatialTail] ++ [.likeTail, .betweenTail] := hq
  rcases List.mem_append.1 hq with hq | hq
  · exact refuses_relationTail hsolid (fun _ => rfl) negated ks q hq
  · rcases List.mem_pair.1 hq with rfl | rfl
    · exact compares_like.refuses hsolid (fun _ => rfl) (fun _ => rfl) negated ks
    · exact compares_between.refuses hsolid (fun _ => rfl) (fun _ => rfl) negated ks

theorem takes_isNull (he : Operand e) (negated : Bool) (s : Span) :
    Takes (.rule .predicate) (Expr.isNull s negated e).tokens (Stops (followers .predicate))
      (Sole (Means (.isNull s negated e))) := by
  have his := Takes.keyword (r := .kwIs) (t := "IS".toList) rfl ⟨nofun, rfl, rfl⟩ fun _ => True
  have hnull := Takes.keyword (r := .kwNull) (t := "NULL".toList) rfl ⟨nofun, rfl, rfl⟩
    (Stops (followers .predicate))
  have hneg := takes_negation (t := "NULL".toList) ⟨_, _, rfl, rfl⟩ (fun _ => rfl) negated
  have hrest := hneg.seq hnull fun ks _ => .cons (List.mem_singleton_self _) ks
  have hall := his.seq hrest fun _ _ => trivial
  rw [Expr.tokens]
  refine takes_predicate he (fun ks => .cons (by decide) _) (takes_tail 5 rfl
    (fun q hq ks => ?_) (.rule rfl hall ?_))
  · have hmiss (rest : List Char) : (tailRules.take 5).all
        (cql2.misses 2 ("IS".toList ++ rest)) = true := rfl
    exact .of_misses ⟨_, _, rfl, rfl⟩ (fun rest => List.all_eq_true.1 (hmiss rest) q hq) _
  · rintro s' us ⟨_, _, rfl, ⟨_, rfl, s₁, rfl⟩, v, _, rfl, ⟨hv, -⟩, _, rfl, s₂, rfl⟩ s'' e' hplace
    refine ⟨.isNull s'' negated e', ?_, ?_⟩
    · have hany : (v ++ [ParseTree.token Rule.kwNull s₂ "NULL".toList]).any
          (OfText.isToken .kwNot) = negated := by
        rw [List.any_append, hv]
        exact Bool.or_false negated
      exact congrArg (fun b => Except.ok (Expr.isNull s'' b e')) hany
    · rw [Expr.unplaced, Expr.unplaced, hplace]

def Grammar.Rule.isOperand : Rule → Bool
  | .predicate | .additive | .multiplicative | .unary => true
  | _ => false

/-- How a filter of a layer is read. Of a chain, more operands may follow. -/
structure Reads (r : Rule) (e : Expr) : Prop where
  joined : ∀ op item, r.chain? = some (op, item) → Joined r op item e
  takes : Takes (.rule r) e.tokens (Stops (followers r)) (Sole (Means e))
  begins : r.isOperand = true → ∀ ks, Refuses (.rule .kwNot) (e.tokens ++ ks)

namespace Reads

theorem of_joined (hr : r.chain? = some (op, item)) (h : Joined r op item e)
    (hbegins : r.isOperand = true → ∀ ks, Refuses (.rule .kwNot) (e.tokens ++ ks)) :
    Reads r e := by
  refine ⟨?_, h.takes hr, hbegins⟩
  intro op' item' hr'
  cases hr.symm.trans hr'
  exact h

theorem of_takes (hr : r.chain? = none)
    (h : Takes (.rule r) e.tokens (Stops (followers r)) (Sole (Means e)))
    (hbegins : r.isOperand = true → ∀ ks, Refuses (.rule .kwNot) (e.tokens ++ ks)) :
    Reads r e := by
  refine ⟨?_, h, hbegins⟩
  intro op item hr'
  cases hr.symm.trans hr'

theorem of_primary (h : Primary e) : Reads .unary e := of_takes rfl (h.takes _) fun _ => h.begins

theorem expression (h : Reads .disjunction e) :
    Takes (.rule .expression) e.tokens (Stops closers) (Sole (Means e)) := by
  apply Takes.rule rfl h.takes
  rintro s us ⟨t, rfl, ht⟩
  exact ht

theorem operand (h : Reads .additive e) : Operand e := h.takes.exists_node rfl

theorem single (hr : r.chain? = some (op, item)) (h : Reads item e)
    (hoperand : r.isOperand = true → item.isOperand = true) : Reads r e :=
  of_joined hr (.one h.takes) fun ho => h.begins (hoperand ho)

theorem predicate (h : Reads .additive e) : Reads .predicate e := by
  have habsent : Takes (.optional .predicateTail) [] (Stops (followers .predicate)) (· = []) :=
    .absent (fun _ hks t ht => solid_of_mem_followers .predicate t (hks t ht))
      fun _ => refuses_predicateTail
  have hall := h.operand.seq habsent fun ks hks => hks.mono fun _ => List.mem_append_right _
  rw [List.append_nil] at hall
  refine of_takes rfl (.rule rfl hall ?_) fun _ => h.begins rfl
  rintro s us ⟨_, _, rfl, ⟨t, rfl, _, _, -, ht⟩, rfl⟩
  exact ht

theorem negation (h : Reads .predicate e) : Reads .negation e := by
  have hchoice : Takes (.anyOf [.inOrder [.rule .kwNot, .rule .negation], .rule .predicate])
      e.tokens (Stops (followers .negation)) (Sole (Means e)) :=
    .choiceRight (fun ks _ c hl => .seqLeft (h.begins rfl ks c hl)) h.takes
  refine of_takes rfl (.rule rfl hchoice ?_) nofun
  rintro s us ⟨t, rfl, e', he, hplace⟩
  exact ⟨e', OfText.expr_unnegated he s, hplace⟩

theorem tighter (hr : r.tighter? = some r') (h : Reads r' e) : Reads r e := by
  unfold Grammar.Rule.tighter? at hr
  split at hr <;> cases hr
  · exact h.single rfl nofun
  · exact h.single rfl nofun
  · exact h.negation
  · exact h.predicate
  · exact h.single rfl fun _ => rfl
  · exact h.single rfl fun _ => rfl

theorem not (h : Reads .negation e) (s : Span) : Reads .negation (.unary s .not e) := by
  have hword := Takes.keyword (r := .kwNot) (t := "NOT".toList) rfl ⟨nofun, rfl, rfl⟩ fun _ => True
  have hall := (hword.seq h.takes fun _ _ => trivial).choiceLeft (.rule .predicate)
  refine of_takes rfl (.rule rfl hall ?_) nofun
  rintro s' us ⟨_, _, rfl, ⟨_, rfl, s'', rfl⟩, t, rfl, e', he, hplace⟩
  exact ⟨.unary s' .not e', OfText.expr_negation he _ _ _,
    congrArg (Expr.unary .zero .not) hplace⟩

theorem minus (h : Reads .unary e) (s : Span) : Reads .unary (.unary s .minus e) := by
  have hsign := Takes.token (r := .minus) (t := ['-']) rfl ⟨_, _, rfl, rfl⟩ (fun _ _ => rfl)
    fun _ => True
  have hall := (hsign.seq h.takes fun _ _ => trivial).choiceLeft .primary
  have hbegins (ks : List (List Char)) : Refuses (.rule .kwNot) (['-'] :: e.tokens ++ ks) :=
    .of_misses (n := 1) ⟨_, _, rfl, rfl⟩ (fun _ => rfl) _
  refine of_takes rfl (.rule rfl hall ?_) fun _ => hbegins
  rintro s' us ⟨_, _, rfl, ⟨_, rfl, s'', rfl⟩, t, rfl, e', he, hplace⟩
  refine ⟨.unary s' .minus e', ?_, congrArg (Expr.unary .zero .minus) hplace⟩
  show (do return Expr.unary s' .minus (← OfText.expr t)) = _
  rw [he]
  rfl

theorem of_predicate (hsubject : Reads .additive subject)
    (htokens : e.tokens = subject.tokens ++ ts)
    (h : Takes (.rule .predicate) e.tokens (Stops (followers .predicate)) (Sole (Means e))) :
    Reads .predicate e := by
  refine of_takes rfl h fun _ ks => ?_
  rw [htokens, List.append_assoc]
  exact hsubject.begins rfl _

theorem join (hop : o.Joins r item) (hleft : Reads r left) (hright : Reads item right) (s : Span) :
    Reads r (.binary s o left right) := by
  have hbegins (hr : r.isOperand = true) (ks : List (List Char)) :
      Refuses (.rule .kwNot) ((Expr.binary s o left right).tokens ++ ks) := by
    rw [Expr.tokens, List.append_assoc]
    exact hleft.begins hr _
  obtain ⟨op, hr, hmem, hoperator⟩ := exists_operator hop
  exact of_joined hr ((hleft.joined op item hr).join hoperator hmem hright.takes s) hbegins

theorem advanced (htakes : op.Takes args.length) (h : ∀ e ∈ args, Reads .additive e)
    (negated : Bool) (s : Span) : Reads .predicate (.advanced s op negated args) := by
  cases args with
  | nil => cases op <;> cases htakes
  | cons subject es =>
    obtain ⟨hsubject, hes⟩ := List.forall_mem_cons.1 h
    refine of_predicate hsubject rfl ?_
    cases op with
    | like =>
      obtain ⟨pattern, rfl⟩ := List.length_eq_one_iff.1 (Nat.succ.inj htakes)
      exact takes_like hsubject.operand (List.forall_mem_singleton.1 hes).operand negated s
    | between =>
      obtain ⟨lower, upper, rfl⟩ := List.length_eq_two.1 (Nat.succ.inj htakes)
      obtain ⟨hlower, hes⟩ := List.forall_mem_cons.1 hes
      exact takes_between hsubject.operand hlower.operand (List.forall_mem_singleton.1 hes).operand
        negated s
    | isIn =>
      have hne : es ≠ [] := List.ne_nil_of_length_pos (Nat.le_of_succ_le_succ htakes)
      exact takes_in hsubject.operand hne (fun e he => (hes e he).operand) negated s

end Reads

theorem Expr.Layered.reads (h : e.Layered FunctionName.Printable PrintableAtom r) : Reads r e := by
  -- A chain to the left of an operator is not yet complete, so the induction carries `Reads`.
  induction h with
  | tighter hr _ ih => exact ih.tighter hr
  | join hop _ _ ihl ihr => exact .join hop ihl ihr _
  | not _ ih => exact ih.not _
  | relate hop _ _ ihl ihr =>
    cases hop with
    | comparison => exact .of_predicate ihl rfl (takes_comparison _ ihl.operand ihr.operand _)
    | spatial => exact .of_predicate ihl rfl (takes_spatial _ ihl.operand ihr.operand _)
  | advanced htakes _ ih => exact .advanced htakes ih _ _
  | isNull _ ih => exact .of_predicate ih rfl (takes_isNull ih.operand _ _)
  | minus _ ih => exact ih.minus _
  | group _ ih => exact .of_primary (primary_group ih.expression _)
  | array hlen _ ih => exact .of_primary (primary_array hlen (fun e he => (ih e he).expression) _)
  | call hname _ ih => exact .of_primary (primary_call hname (fun e he => (ih e he).expression) _)
  | atom ha => exact .of_primary (primary_atom ha)

/-- However the tokens of a filter are spaced, the filter is read from them, places apart. -/
theorem ofText_of_laid {e : Expr} (h : e.Printable) (hl : Laid e.tokens text.toList) :
    ∃ e', Expr.ofText text = .ok e' ∧ e'.unplaced = e.unplaced := by
  have hreads := (Expr.Layered.reads h).expression
  have hl : Laid (e.tokens ++ []) (Cursor.ofText text.toList).rest := by
    rwa [List.append_nil]
  obtain ⟨d, _, hd, ht, t, rfl, e', he, hplace⟩ := hreads _ [] hl nofun
  exact Spells.ofText ⟨t, e', ht, he, hplace⟩ hd.rest_skipBlanks_nil

/-- The canonical text of a filter is read as the filter, places apart. -/
theorem Expr.ofText_toText {e : Expr} (h : e.Printable) :
    ∃ e', Expr.ofText e.toText = .ok e' ∧ e'.unplaced = e.unplaced :=
  ofText_of_laid h e.laid_toText

/-- A filter with operators of all kinds of layers, and its text. -/
theorem Expr.ofText_toText_mixed :
    let range : Expr := .advanced .zero .between true [.property .zero "a b",
      .literal .zero (.integer 1), .binary .zero (.arithmetic .subtract)
        (.literal .zero (.integer 2)) (.unary .zero .minus (.property .zero "c"))]
    let e : Expr := .binary .zero .or
      (.binary .zero .and range (.unary .zero .not (.isNull .zero false
        (.call .zero (.other "f") []))))
      (.group .zero (.literal .zero (.string "it's")))
    e.toText = "\"a b\" NOT BETWEEN 1 AND 2 - - \"c\" AND NOT f ( ) IS NULL OR ( 'it''s' )" ∧
      e.Printable ∧ ∃ e', Expr.ofText e.toText = .ok e' ∧ e'.unplaced = e.unplaced := by
  intro range e
  have property {name : String} (h : PrintableProperty name) :
      (Expr.property .zero name).Layered FunctionName.Printable PrintableAtom .unary :=
    .atom (.property h)
  have literal {value : Literal} (h : value.Printable) :
      (Expr.literal .zero value).Layered FunctionName.Printable PrintableAtom .unary :=
    .atom (.literal h)
  have hrange : range.Layered FunctionName.Printable PrintableAtom .predicate := by
    refine .advanced rfl ?_
    simp only [List.forall_mem_cons]
    refine ⟨(property (by decide)).additive, (literal (.integer (by decide))).additive, ?_, nofun⟩
    exact .join .subtract (literal (.integer (by decide))).additive
      (.tighter rfl (.minus (property (by decide))))
  have hcall : FunctionName.Printable (.other "f") :=
    ⟨by decide, ⟨'f', [], rfl, rfl, rfl⟩, by decide⟩
  have he : e.Printable := by
    refine .join .or (.tighter rfl (.join .and hrange.conjunction (.not (.tighter rfl
      (.isNull (.additive (.call hcall nofun))))))) ?_
    exact .conjunction (.tighter rfl (.additive (.group (literal .string).disjunction)))
  exact ⟨by decide +kernel, he, Expr.ofText_toText he⟩

end FeatureFilter
