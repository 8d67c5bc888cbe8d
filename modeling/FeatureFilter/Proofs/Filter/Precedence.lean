import FeatureFilter.Proofs.Filter.NumberText
import FeatureFilter.Proofs.Filter.Parts
import FeatureFilter.Proofs.Filter.Shapes

namespace FeatureFilter

open Grammar
open Text (Span)

namespace Expr

/-- How loosely a node holds its operands together: disjunctions most, then conjunctions, negations,
predicates, sums and products. All other nodes are as tight as they can be. -/
def looseness : Expr → Nat
  | .binary _ .or _ _ => 6
  | .binary _ .and _ _ => 5
  | .unary _ .not _ => 4
  | .binary _ (.comparison _) _ _ | .binary _ (.spatial _) _ _ | .advanced .. | .isNull .. => 3
  | .binary _ (.arithmetic .add) _ _ | .binary _ (.arithmetic .subtract) _ _ => 2
  | .binary _ (.arithmetic .multiply) _ _ | .binary _ (.arithmetic .divide) _ _ => 1
  | .unary _ .minus _ | .call .. | .property .. | .literal .. | .geometry .. | .geometries ..
  | .box .. | .group .. | .array .. | .interval .. | .operator .. => 0

/-- What holds of a node and its parts in a filter that is written without further parentheses. -/
def Ordered : Expr → Prop
  | .binary _ .or _ right => right.looseness ≤ 5
  | .binary _ .and left right => left.looseness ≤ 5 ∧ right.looseness ≤ 4
  | .binary _ (.comparison _) left right => left.looseness ≤ 2 ∧ right.looseness ≤ 2
  | .binary _ (.spatial _) left right => left.looseness ≤ 2 ∧ right.looseness ≤ 2
  | .binary _ (.arithmetic .add) left right => left.looseness ≤ 2 ∧ right.looseness ≤ 1
  | .binary _ (.arithmetic .subtract) left right => left.looseness ≤ 2 ∧ right.looseness ≤ 1
  | .binary _ (.arithmetic .multiply) left right => left.looseness ≤ 1 ∧ right.looseness = 0
  | .binary _ (.arithmetic .divide) left right => left.looseness ≤ 1 ∧ right.looseness = 0
  | .unary _ .not operand => operand.looseness ≤ 4
  | .unary _ .minus operand => operand.looseness = 0
  | .isNull _ _ operand => operand.looseness ≤ 2
  | .advanced _ op _ args => op.Takes args.length ∧ ∀ e ∈ args, e.looseness ≤ 2
  | .array _ items => items.length ≠ 1
  | .box _ items => items ≠ [] ∧ ∀ e ∈ items, e.IsNumeral
  | .interval _ start stop => start.IsBound ∧ stop.IsBound
  | .operator .. => False
  | .call .. | .property .. | .literal .. | .geometry .. | .geometries .. | .group .. => True

/-- Filters without operators: names, values, geometries, boxes and intervals. -/
inductive IsAtom : Expr → Prop
  | property : IsAtom (.property s name)
  | literal : IsAtom (.literal s value)
  | geometry : IsAtom (.geometry s g)
  | geometries : IsAtom (.geometries s gs)
  | box : items ≠ [] → (∀ e ∈ items, e.IsNumeral) → IsAtom (.box s items)
  | interval : start.IsBound → stop.IsBound → IsAtom (.interval s start stop)

theorem IsNumeral.isAtom (h : IsNumeral e) : e.IsAtom := by
  cases h with
  | integer | number => exact .literal

theorem IsBound.isAtom (h : IsBound e) : e.IsAtom := by
  cases h with
  | timestamp | date | string => exact .literal
  | property => exact .property

theorem IsAtom.ordered (h : IsAtom e) : e.looseness = 0 ∧ e.Ordered := by
  cases h with
  | property | literal | geometry | geometries => exact ⟨rfl, trivial⟩
  | box hne hitems => exact ⟨rfl, hne, hitems⟩
  | interval hstart hstop => exact ⟨rfl, hstart, hstop⟩

theorem IsAtom.part (h : IsAtom e) (hm : m ∈ e.parts) : m.IsAtom := by
  cases h with
  | property | literal | geometry | geometries => cases hm
  | box hne hitems => exact (hitems m hm).isAtom
  | interval hstart hstop =>
    rcases List.mem_pair.1 hm with rfl | rfl
    · exact hstart.isAtom
    · exact hstop.isAtom

theorem IsAtom.contains (h : IsAtom e) (hn : e.Contains n) : n.Ordered := by
  induction hn with
  | self => exact h.ordered.2
  | part hm _ ih => exact ih (h.part hm)

end Expr

/-- The greatest looseness in a layer. -/
def Grammar.Rule.looseness : Rule → Nat
  | .disjunction => 6
  | .conjunction => 5
  | .negation => 4
  | .predicate => 3
  | .additive => 2
  | .multiplicative => 1
  | _ => 0

namespace Expr.Layered

variable {Name : FunctionName → Prop}

theorem looseness_le (h : Layered Name IsAtom r e) : e.looseness ≤ r.looseness := by
  induction h with
  | tighter hr _ ih =>
    refine Nat.le_trans ih ?_
    unfold Grammar.Rule.tighter? at hr
    split at hr <;> cases hr <;> decide
  | join hop => cases hop <;> exact Nat.le_refl _
  | relate hop => cases hop <;> exact Nat.le_refl _
  | not | advanced | isNull | minus | group | array | call => exact Nat.le_refl _
  | atom ha => exact Nat.le_of_eq ha.ordered.1

theorem contains (h : Layered Name IsAtom r e) (hn : e.Contains n) : n.Ordered := by
  induction h with
  | tighter _ _ ih => exact ih hn
  | join hop hl hr ihl ihr =>
    cases hn with
    | self =>
      have hl := hl.looseness_le
      have hr := hr.looseness_le
      cases hop with
      | or => exact hr
      | and | add | subtract => exact ⟨hl, hr⟩
      | multiply | divide => exact ⟨hl, Nat.le_zero.1 hr⟩
    | part hm hn =>
      rcases List.mem_pair.1 hm with rfl | rfl
      · exact ihl hn
      · exact ihr hn
  | not he ih =>
    cases hn with
    | self => exact he.looseness_le
    | part hm hn =>
      cases List.mem_singleton.1 hm
      exact ih hn
  | relate hop hl hr ihl ihr =>
    cases hn with
    | self =>
      cases hop with
      | comparison | spatial => exact ⟨hl.looseness_le, hr.looseness_le⟩
    | part hm hn =>
      rcases List.mem_pair.1 hm with rfl | rfl
      · exact ihl hn
      · exact ihr hn
  | advanced htakes hargs ih =>
    cases hn with
    | self => exact ⟨htakes, fun e he => (hargs e he).looseness_le⟩
    | part hm hn => exact ih _ hm hn
  | isNull he ih =>
    cases hn with
    | self => exact he.looseness_le
    | part hm hn =>
      cases List.mem_singleton.1 hm
      exact ih hn
  | minus he ih =>
    cases hn with
    | self => exact Nat.le_zero.1 he.looseness_le
    | part hm hn =>
      cases List.mem_singleton.1 hm
      exact ih hn
  | group he ih =>
    cases hn with
    | self => trivial
    | part hm hn =>
      cases List.mem_singleton.1 hm
      exact ih hn
  | array hlen hitems ih =>
    cases hn with
    | self => exact hlen
    | part hm hn => exact ih _ hm hn
  | call hname hargs ih =>
    cases hn with
    | self => trivial
    | part hm hn => exact ih _ hm hn
  | atom ha => exact ha.contains hn

end Expr.Layered

namespace OfText

theorem exists_of_bind {x : Result α} {f : α → Result β} (h : x >>= f = .ok b) :
    ∃ a, x = .ok a ∧ f a = .ok b := by
  cases x with
  | error => cases h
  | ok a => exact ⟨a, rfl, h⟩

def layer : Rule → Rule
  | .expression => .disjunction
  | .disjunction => .disjunction
  | .conjunction => .conjunction
  | .negation => .negation
  | .predicate => .predicate
  | .additive => .additive
  | .multiplicative => .multiplicative
  | _ => .unary

theorem layer_of_tighter (h : Rule.tighter? r = some item) : layer r = r ∧ layer item = item := by
  unfold Rule.tighter? at h
  split at h <;> cases h <;> exact ⟨rfl, rfl⟩

def Layers (t : ParseTree Rule) : Prop :=
  ∀ r e, Grows cql2 (.rule r) [t] → expr t = .ok e →
    e.Layered (fun _ => True) Expr.IsAtom (layer r)

theorem chainFrom_layered (hr : Joining r op item) (hi : layer item = item)
    (hts : Grows cql2 (.many (.seq (.rule op) (.rule item))) ts) (hall : ∀ t ∈ ts, Layers t)
    (hleft : left.Layered (fun _ => True) Expr.IsAtom r) (h : chainFrom s left ts = .ok e) :
    e.Layered (fun _ => True) Expr.IsAtom r := by
  generalize hx : Phrase.many (.seq (.rule op) (.rule item)) = x at hts
  induction hts generalizing left with
  | never =>
    cases h
    exact hleft
  | many hpair hmore _ ih =>
    cases hx
    cases hpair with
    | seq hop hitem =>
      obtain ⟨sign, rfl⟩ := hop.exists_tree
      obtain ⟨o, ho, hjoins⟩ := hr.exists_operator hop
      obtain ⟨t, rfl⟩ := hitem.exists_tree
      obtain ⟨_, ho', h⟩ := exists_of_bind h
      obtain ⟨right, hright, h⟩ := exists_of_bind h
      rw [ho] at ho'
      cases ho'
      have hright := hall t (by simp) item right hitem hright
      rw [hi] at hright
      exact ih (fun t ht => hall t (by simp [ht])) (.join hjoins hleft hright) h rfl
  | _ => cases hx

theorem chain_layered (hr : Joining r op item) (hi : layer item = item)
    (hts : Grows cql2 (.separated (.rule op) (.rule item)) ts) (hall : ∀ t ∈ ts, Layers t)
    (h : chain rule s ts = .ok e) : e.Layered (fun _ => True) Expr.IsAtom r := by
  cases hts with
  | seq hitem hmore =>
    obtain ⟨t, rfl⟩ := hitem.exists_tree
    obtain ⟨ht, hmany⟩ := List.forall_mem_cons.1 hall
    obtain ⟨left, hleft, h⟩ := exists_of_bind h
    have hleft := ht item left hitem hleft
    rw [hi] at hleft
    exact chainFrom_layered hr hi hmore hmany (.tighter hr.layer hleft) h

theorem each_ok (h : each ts = .ok es) :
    es.length = ts.length ∧ ∀ e ∈ es, ∃ t ∈ ts, expr t = .ok e := by
  induction ts generalizing es with
  | nil =>
    cases h
    exact ⟨rfl, nofun⟩
  | cons t ts ih =>
    obtain ⟨e, he, h⟩ := exists_of_bind h
    obtain ⟨es', hes, h⟩ := exists_of_bind h
    cases h
    obtain ⟨hlen, hall⟩ := ih hes
    refine ⟨congrArg (· + 1) hlen, List.forall_mem_cons.2 ⟨⟨t, List.mem_cons_self, he⟩, ?_⟩⟩
    intro f hf
    obtain ⟨u, hu, hexpr⟩ := hall f hf
    exact ⟨u, List.mem_cons_of_mem t hu, hexpr⟩

theorem each_layered (h : each ts = .ok es) (hall : ∀ t ∈ ts, Layers t)
    (hts : ∀ t ∈ ts, Grows cql2 (.rule r) [t]) :
    ∀ e ∈ es, e.Layered (fun _ => True) Expr.IsAtom (layer r) := by
  intro e he
  obtain ⟨t, ht, hexpr⟩ := (each_ok h).2 e he
  exact hall t ht r e (hts t ht) hexpr

theorem predicate_layered (hsubject : subject.Layered (fun _ => True) Expr.IsAtom .additive)
    (htail : Grows cql2 .predicateTail [tail]) (hall : ∀ u ∈ tail.children, Layers u)
    (h : predicate s subject tail = .ok e) :
    e.Layered (fun _ => True) Expr.IsAtom .predicate := by
  cases tail_of_grows htail with
  | relation hr ho hrelates ht =>
    rw [predicate_relation hr] at h
    obtain ⟨o', ho', h⟩ := exists_of_bind h
    obtain ⟨right, hright, h⟩ := exists_of_bind h
    cases (ho _).symm.trans ho'
    cases h
    exact .relate hrelates hsubject (hall _ (by simp [ParseTree.children]) _ _ ht hright)
  | advanced hr hoperands htakes =>
    rw [predicate_advanced hr] at h
    obtain ⟨es, hes, h⟩ := exists_of_bind h
    cases h
    rw [operands_eq] at hes
    have hlayers := each_layered hes (fun t ht => hall t (List.mem_filter.1 ht).1) hoperands
    refine .advanced ?_ (List.forall_mem_cons.2 ⟨hsubject, hlayers⟩)
    rw [List.length_cons, (each_ok hes).1]
    exact htakes
  | isNull =>
    cases h
    exact .isNull hsubject

theorem isNumeral_numeral (h : numeral s lexeme = .ok l) : (Expr.literal s' l).IsNumeral := by
  cases hl : Literal.ofNumeral? lexeme with
  | none =>
    rw [numeral, hl] at h
    cases h
  | some l' =>
    cases (numeral_eq hl s).symm.trans h
    rcases Literal.eq_of_ofNumeral? hl with ⟨n, rfl⟩ | ⟨x, rfl⟩
    · exact .integer
    · exact .number

theorem isBound_timestamp (h : timestamp s text = .ok e) : e.IsBound := by
  rw [timestamp] at h
  split at h
  · cases h
    exact .timestamp
  · cases h

theorem isBound_date (h : date s text = .ok e) : e.IsBound := by
  rw [date] at h
  split at h
  · cases h
    exact .date
  · cases h

theorem isBound_propertyExpr (h : propertyExpr s ts = .ok e) : e.IsBound := by
  unfold propertyExpr at h
  split at h
  · cases h
    exact .property
  · cases h
    exact .property
  · cases h

theorem isBound_expr (ht : Grows cql2 .intervalBound [t]) (h : expr t = .ok e) : e.IsBound := by
  obtain ⟨r, hr, hg⟩ := ht.exists_rule boundRules (List.cons_ne_nil _ _)
  simp only [boundRules, List.mem_cons, List.not_mem_nil, or_false] at hr
  rcases hr with rfl | rfl | rfl | rfl
  · obtain ⟨s, ts, ht, hts⟩ := hg.exists_node rfl
    cases ht
    obtain ⟨text, -, h⟩ := exists_of_bind h
    exact isBound_timestamp h
  · obtain ⟨s, ts, ht, hts⟩ := hg.exists_node rfl
    cases ht
    obtain ⟨text, -, h⟩ := exists_of_bind h
    exact isBound_date h
  · obtain ⟨s, lexeme, cs, rest, ht, -⟩ := hg.exists_token rfl
    cases ht
    cases h
    exact .string
  · obtain ⟨s, ts, ht, hts⟩ := hg.exists_node rfl
    cases ht
    exact isBound_propertyExpr h

theorem isNumeral_expr (ht : Grows cql2 (.rule .signedNumber) [t]) (h : expr t = .ok e) :
    e.IsNumeral := by
  obtain ⟨s, lexeme, cs, rest, ht, -⟩ := ht.exists_token rfl
  cases ht
  obtain ⟨l, hl, h⟩ := exists_of_bind h
  cases h
  exact isNumeral_numeral hl

/-- The subject and the tail of a predicate lie two levels apart, so the parts are carried along. -/
theorem layers (t : ParseTree Rule) : Layers t ∧ ∀ u ∈ t.children, Layers u := by
  induction t using ParseTree.inductionOn with
  | token rule s lexeme =>
    refine ⟨?_, fun u hu => absurd hu List.not_mem_nil⟩
    intro r e hg he
    cases hg with
    | token =>
      cases rule with
      | numberLiteral | signedNumber =>
        obtain ⟨l, -, he⟩ := exists_of_bind he
        cases he
        exact .atom .literal
      | stringLiteral =>
        cases he
        exact .atom .literal
      | _ => cases he
  | node rule s children ih =>
    have hall : ∀ u ∈ children, Layers u := fun u hu => (ih u hu).1
    refine ⟨?_, hall⟩
    intro r e hg he
    cases hg with
    | node hd hbody =>
    cases shape_of_grows (isValue_of_expr he) hd hbody with
    | expression ht => exact hall _ List.mem_cons_self .disjunction e ht he
    | chain hr hts =>
      rw [hr.expr] at he
      obtain ⟨hlayer, hitem⟩ := layer_of_tighter hr.layer
      rw [hlayer]
      exact chain_layered hr hitem hts hall he
    | not ht =>
      obtain ⟨operand, hoperand, he⟩ := exists_of_bind he
      cases he
      exact .not (hall _ (by simp) .negation _ ht hoperand)
    | positive ht =>
      rw [expr_positive ht] at he
      exact .tighter rfl (hall _ List.mem_cons_self .predicate e ht he)
    | minus ht =>
      obtain ⟨operand, hoperand, he⟩ := exists_of_bind he
      cases he
      exact .minus (hall _ (by simp) .unary _ ht hoperand)
    | primary hr ht =>
      have hlayer : ∀ r ∈ primaryRules, layer r = .unary := by decide
      rw [expr_primary hr ht] at he
      have hprimary := hall _ List.mem_cons_self _ e ht he
      rw [hlayer _ hr] at hprimary
      exact hprimary
    | subject ht => exact .tighter rfl (hall _ List.mem_cons_self .additive e ht he)
    | predicate ht htail =>
      obtain ⟨subject, hsubject, he⟩ := exists_of_bind he
      exact predicate_layered (hall _ List.mem_cons_self .additive _ ht hsubject) htail
        (ih _ (by simp)).2 he
    | boolean | null =>
      cases he
      exact .atom .literal
    | timestamp =>
      rw [expr_timestamp] at he
      exact .atom (isBound_timestamp he).isAtom
    | date =>
      rw [expr_date] at he
      exact .atom (isBound_date he).isAtom
    | interval hstart hstop =>
      obtain ⟨e₁, he₁, he⟩ := exists_of_bind he
      obtain ⟨e₂, he₂, he⟩ := exists_of_bind he
      cases he
      exact .atom (.interval (isBound_expr hstart he₁) (isBound_expr hstop he₂))
    | box hne hitems =>
      obtain ⟨items, hread, he⟩ := exists_of_bind he
      cases he
      obtain ⟨hlen, hexpr⟩ := each_ok hread
      refine .atom (.box ?_ fun e he => ?_)
      · rintro rfl
        exact hne (List.length_eq_zero_iff.1 hlen.symm)
      · obtain ⟨t, ht, hte⟩ := hexpr e he
        exact isNumeral_expr (hitems t ht) hte
    | geometry =>
      obtain ⟨g, -, he⟩ := exists_of_bind he
      cases he
      cases g with
      | collection => exact .atom .geometries
      | _ => exact .atom .geometry
    | call hargs =>
      obtain ⟨args, hread, he⟩ := exists_of_bind he
      cases he
      exact .call trivial (each_layered hread (List.forall_mem_cons.1 hall).2 hargs)
    | parenthesized hts =>
      obtain ⟨items, hread, he⟩ := exists_of_bind he
      have hlayers := each_layered hread hall hts
      obtain _ | ⟨e, _ | ⟨e', es⟩⟩ := items
      · cases he
        exact .array (by simp) hlayers
      · cases he
        exact .group (hlayers e List.mem_cons_self)
      · cases he
        exact .array (by simp) hlayers
    | property => exact .atom (isBound_propertyExpr he).isAtom

end OfText

/-- Every node of a filter that a text is read as is in order. -/
theorem Expr.ofText_ordered (h : Expr.ofText text = .ok e) (hn : e.Contains n) : n.Ordered := by
  obtain ⟨d, t, ht, -, he⟩ := derives_of_ofText h
  exact ((OfText.layers t).1 .expression e (ht.grows _ _ rfl) he).contains hn

/-- With a conjunction as the right operand, a range that has an `AND` of its own, and operators of
one kind in a row. -/
theorem Expr.ofText_ordered_range :
    ∃ e, Expr.ofText "a - b - 2 * c > d OR NOT e BETWEEN 1 AND -f AND g IN (1, 2)" = .ok e ∧
      e.Contains e ∧ e.Ordered := by
  have hread : (Expr.ofText
      "a - b - 2 * c > d OR NOT e BETWEEN 1 AND -f AND g IN (1, 2)").isOk = true := by
    decide +kernel
  cases hr : Expr.ofText "a - b - 2 * c > d OR NOT e BETWEEN 1 AND -f AND g IN (1, 2)" with
  | ok e => exact ⟨e, rfl, .self, Expr.ofText_ordered hr .self⟩
  | error =>
    rw [hr] at hread
    cases hread

end FeatureFilter
