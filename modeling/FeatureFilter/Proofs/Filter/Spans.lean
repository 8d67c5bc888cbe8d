import FeatureFilter.Proofs.Filter.CaseBlind
import FeatureFilter.Proofs.Filter.JsonPlaces
import FeatureFilter.Proofs.Filter.Parts
import FeatureFilter.Proofs.Filter.Precedence
import FeatureFilter.Proofs.Filter.Quoting
import FeatureFilter.Proofs.Grammar.Visits
import FeatureFilter.Proofs.Text.Positions

namespace FeatureFilter

open Grammar
open Text (Position Span)

namespace Grammar.Pattern

theorem exists_of_scan_quotedIdentifier (h : quotedIdentifier.scan cs = some (taken, rest)) :
    ∃ body, taken = '"' :: body ++ ['"'] := by
  obtain ⟨first, mid, more, hfirst, hmore, rfl⟩ := exists_of_scan_seq h
  obtain ⟨body, mid', last, -, hlast, rfl⟩ := exists_of_scan_seq hmore
  cases (scan_text_iff.1 hfirst).1
  cases (scan_text_iff.1 hlast).1
  exact ⟨body, rfl⟩

end Grammar.Pattern

/-- Names, strings and numbers are what stands in a stretch of text. -/
def Expr.ReadFrom (w : List Char) : Expr → Prop
  | .property _ name => w = name.toList ∨ w = '"' :: name.toList ++ ['"']
  | .literal _ (.string s) => w = Text.quote '\'' s.toList ∧ Text.unquote '\'' w = s.toList
  | .literal _ (.integer n) => NumberText w ∧ Literal.ofNumeral? w = some (.integer n)
  | .literal _ (.number x) => NumberText w ∧ Literal.ofNumeral? w = some (.number x)
  | _ => True

/-- A filter lies between two points: its span is a stretch there that it is read from, and its
parts lie in that stretch. -/
inductive Expr.Lies : Cursor → Cursor → Expr → Prop
  | mk (a b : Cursor) (w : List Char) : c.Leads a → w ++ b.rest = a.rest →
    b.position = a.position.after w → b.Leads d → e.span = .between a.position b.position →
    e.ReadFrom w → (∀ m ∈ e.parts, Lies a b m) → Lies c d e

namespace Expr.Lies

variable {c c' d d' : Cursor} {e m n : Expr}

theorem mono (h : e.Lies c d) (hc : c'.Leads c) (hd : d.Leads d') : e.Lies c' d' := by
  cases h with
  | mk a b w ha happ hpos hb hspan hread hparts =>
    exact .mk a b w (hc.trans ha) happ hpos (hb.trans hd) hspan hread hparts

theorem part (h : e.Lies c d) (hm : m ∈ e.parts) : m.Lies c d := by
  cases h with
  | mk a b w ha _ _ hb _ _ hparts => exact (hparts m hm).mono ha hb

theorem contains (h : e.Lies c d) (hn : e.Contains n) : n.Lies c d := by
  induction hn with
  | self => exact h
  | part hm _ ih => exact ih (h.part hm)

theorem node (hcd : c.Leads d) (hspan : e.span = .between c.position d.position)
    (hread : ∀ w, e.ReadFrom w) (hparts : ∀ m ∈ e.parts, m.Lies c d) : e.Lies c d := by
  obtain ⟨w, happ, hpos⟩ := hcd
  exact .mk c d w (.refl c) happ hpos (.refl d) hspan (hread w) hparts

theorem leaf (hcd : c.Leads d) (hspan : e.span = .between c.position d.position)
    (hread : ∀ w, e.ReadFrom w) (hparts : e.parts = []) : e.Lies c d := by
  refine node hcd hspan hread ?_
  rw [hparts]
  exact fun _ hm => absurd hm List.not_mem_nil

theorem token (happ : w ++ rest = c.rest)
    (hspan : e.span = .between c.position (c.moveTo w rest).position)
    (hread : e.ReadFrom w) (hparts : e.parts = []) : e.Lies c (c.moveTo w rest) := by
  refine .mk c _ w (.refl c) happ rfl (.refl _) hspan hread ?_
  rw [hparts]
  exact fun _ hm => absurd hm List.not_mem_nil

end Expr.Lies

namespace OfText

/-- A tree stands for a filter between two points, if for any. -/
def Lands (c d : Cursor) (t : ParseTree Rule) : Prop := ∀ e, expr t = .ok e → e.Lies c d

theorem lies_numeral {c : Cursor} (hr : r = .numberLiteral ∨ r = .signedNumber)
    (hw : NumberText w) (happ : w ++ rest = c.rest)
    (h : expr (.token r (.between c.position (c.moveTo w rest).position) w) = .ok e) :
    e.Lies c (c.moveTo w rest) := by
  obtain ⟨l, hl⟩ := Literal.exists_ofNumeral? hw
  cases (expr_numeral hr hl _).symm.trans h
  refine .token happ rfl ?_ rfl
  rcases Literal.eq_of_ofNumeral? hl with ⟨n, rfl⟩ | ⟨x, rfl⟩
  · exact ⟨hw, hl⟩
  · exact ⟨hw, hl⟩

section

variable {c d : Cursor}

theorem binary_lies (hcd : c.Leads d) (op : BinaryOp) (hleft : left.Lies c d)
    (hright : right.Lies c d) :
    (Expr.binary (.between c.position d.position) op left right).Lies c d := by
  refine .node hcd rfl (fun _ => trivial) fun m hm => ?_
  rcases List.mem_pair.1 hm with rfl | rfl
  · exact hleft
  · exact hright

theorem chainFrom_lies (hcd : c.Leads d) (hleft : left.Lies c d) (hts : ∀ t ∈ ts, Lands c d t)
    (h : chainFrom (.between c.position d.position) left ts = .ok e) : e.Lies c d := by
  -- The operands are taken two at a time, so the induction is on the length.
  induction hn : ts.length using Nat.strongRecOn generalizing ts left with
  | ind n ih =>
    rcases ts with _ | ⟨op, _ | ⟨t, ts⟩⟩
    · cases h
      exact hleft
    · cases h
    · obtain ⟨_, hts⟩ := List.forall_mem_cons.1 hts
      obtain ⟨ht, hts⟩ := List.forall_mem_cons.1 hts
      obtain ⟨o, -, h⟩ := exists_of_bind h
      obtain ⟨right, hright, h⟩ := exists_of_bind h
      have hlt : ts.length < n := by
        rw [← hn, List.length_cons, List.length_cons]
        omega
      exact ih ts.length hlt (binary_lies hcd o hleft (ht right hright)) hts h rfl

theorem chain_lies (hcd : c.Leads d) (hts : ∀ t ∈ ts, Lands c d t)
    (h : chain rule (.between c.position d.position) ts = .ok e) : e.Lies c d := by
  cases ts with
  | nil => cases h
  | cons t ts =>
    obtain ⟨ht, hts⟩ := List.forall_mem_cons.1 hts
    obtain ⟨left, hleft, h⟩ := exists_of_bind h
    exact chainFrom_lies hcd (ht left hleft) hts h

theorem each_lies (hts : ∀ t ∈ ts, Lands c d t) (h : each ts = .ok es) : ∀ e ∈ es, e.Lies c d := by
  intro e he
  obtain ⟨t, ht, hexpr⟩ := (each_ok h).2 e he
  exact hts t ht e hexpr

theorem operands_lies (hts : ∀ t ∈ ts, Lands c d t) (h : operands ts = .ok es) :
    ∀ e ∈ es, e.Lies c d := by
  rw [operands_eq] at h
  exact each_lies (fun t ht => hts t (List.mem_of_mem_filter ht)) h

theorem signed_lies (hcd : c.Leads d) (hts : ∀ t ∈ ts, Lands c d t)
    (h : signed mark op part operand (.between c.position d.position) ts = .ok e) :
    e.Lies c d := by
  rcases ts with _ | ⟨t, _ | ⟨u, us⟩⟩
  · cases h
  · rw [signed] at h
    split at h
    · cases h
    · exact hts t List.mem_cons_self e h
  · rw [signed] at h
    split at h
    · obtain ⟨inner, hinner, h⟩ := exists_of_bind h
      cases h
      refine .node hcd rfl (fun _ => trivial) (List.forall_mem_singleton.2 ?_)
      exact hts u (List.mem_cons_of_mem t List.mem_cons_self) inner hinner
    · exact hts t List.mem_cons_self e h

theorem related_lies (hcd : c.Leads d) (hsubject : subject.Lies c d)
    (hts : ∀ t ∈ ts, Lands c d t)
    (h : related (.between c.position d.position) s subject ts = .ok e) : e.Lies c d := by
  rcases ts with _ | ⟨op, _ | ⟨t, ts⟩⟩
  · cases h
  · cases h
  · obtain ⟨o, -, h⟩ := exists_of_bind h
    obtain ⟨right, hright, h⟩ := exists_of_bind h
    cases h
    exact binary_lies hcd o hsubject
      (hts t (List.mem_cons_of_mem op List.mem_cons_self) right hright)

theorem predicate_lies (hcd : c.Leads d) (hsubject : subject.Lies c d)
    (hts : ∀ t ∈ tail.children, Lands c d t)
    (h : predicate (.between c.position d.position) subject tail = .ok e) : e.Lies c d := by
  cases tail with
  | token => cases h
  | node rule s children =>
    cases rule with
    | comparisonTail | spatialTail => exact related_lies hcd hsubject hts h
    | likeTail | betweenTail | inTail =>
      obtain ⟨es, hes, h⟩ := exists_of_bind h
      cases h
      exact .node hcd rfl (fun _ => trivial)
        (List.forall_mem_cons.2 ⟨hsubject, operands_lies hts hes⟩)
    | isNullTail =>
      cases h
      exact .node hcd rfl (fun _ => trivial) (List.forall_mem_singleton.2 hsubject)
    | _ => cases h

theorem timestamp_lies (hcd : c.Leads d)
    (h : timestamp (.between c.position d.position) text = .ok e) : e.Lies c d := by
  rw [timestamp] at h
  split at h
  · cases h
    exact .leaf hcd rfl (fun _ => trivial) rfl
  · cases h

theorem date_lies (hcd : c.Leads d)
    (h : date (.between c.position d.position) text = .ok e) : e.Lies c d := by
  rw [date] at h
  split at h
  · cases h
    exact .leaf hcd rfl (fun _ => trivial) rfl
  · cases h

theorem ofGeometry_lies (hcd : c.Leads d) (g : Geometry) :
    (Expr.ofGeometry (.between c.position d.position) g).Lies c d := by
  cases g <;> exact .leaf hcd rfl (fun _ => trivial) rfl

theorem property_lies
    (hts : Derives cql2 (.phrase (.anyOf [.rule .quotedIdentifier, .rule .identifier])) c
      (some (d, ts)))
    (h : propertyExpr (.between c.position d.position) ts = .ok e) : e.Lies c d := by
  cases hts with
  | choiceLeft hquoted =>
    cases hquoted with
    | node hd => cases hd
    | token hd hs =>
      cases hd
      cases h
      obtain ⟨body, hbody⟩ := Pattern.exists_of_scan_quotedIdentifier hs
      refine .token (Pattern.append_of_scan hs) rfl (.inr ?_) rfl
      rw [hbody, Text.between_quotes, String.toList_ofList]
  | choiceRight _ hname =>
    cases hname with
    | node hd => cases hd
    | token hd hs =>
      cases hd
      cases h
      exact .token (Pattern.append_of_scan hs) rfl (.inl String.toList_ofList.symm) rfl

theorem token_lies (ht : Derives cql2 (.phrase (.rule r)) c (some (d, [.token rule s lexeme]))) :
    Lands c d (.token rule s lexeme) := by
  intro e he
  cases ht with
  | token hd hs =>
    have happ := Pattern.append_of_scan hs
    cases r with
    | numberLiteral =>
      cases hd
      exact lies_numeral (.inl rfl) (Pattern.numberText_of_scan hs) happ he
    | signedNumber =>
      cases hd
      exact lies_numeral (.inr rfl) (Pattern.numberText_of_scan_signed hs) happ he
    | stringLiteral =>
      cases hd
      cases he
      obtain ⟨body, rfl⟩ := Pattern.exists_quote_of_scan_string hs
      have hvalue : (stringValue (Text.quote '\'' body)).toList = body := by
        rw [stringValue, Text.unquote_quote, String.toList_ofList]
      refine .token happ rfl ⟨?_, ?_⟩ rfl
      · rw [hvalue]
      · rw [hvalue, Text.unquote_quote]
    | _ => cases he

end

def Settles (t : ParseTree Rule) : Prop :=
  ∀ r c d, Derives cql2 (.phrase (.rule r)) c (some (d, [t])) → Lands c d t

theorem Settles.lands (h : Settles t) (ht : Cursor.Holds cql2 c d t) : Lands c d t := by
  obtain ⟨r, a, b, ha, hb, hr⟩ := ht
  exact fun e he => (h r a b hr e he).mono ha hb

/-- The operands in the tail of a predicate lie two levels down, so the parts are carried along. -/
theorem settles (t : ParseTree Rule) : Settles t ∧ ∀ u ∈ t.children, Settles u := by
  induction t using ParseTree.inductionOn with
  | token rule s lexeme =>
    exact ⟨fun r c d ht => token_lies ht, fun _ hu => absurd hu List.not_mem_nil⟩
  | node rule s children ih =>
    refine ⟨?_, fun u hu => (ih u hu).1⟩
    intro r c d ht e he
    have hcd : c.Leads d := ht.leads _ _ rfl
    have hholds := ht.holds_children
    have hts : ∀ u ∈ children, Lands c d u := fun u hu => (ih u hu).1.lands (hholds u hu)
    cases ht with
    | node hd hbody =>
    cases shape_of_grows (isValue_of_expr he) hd (hbody.grows _ _ rfl) with
    | expression | subject => exact hts _ List.mem_cons_self e he
    | chain hr =>
      rw [hr.expr] at he
      exact chain_lies hcd hts he
    | not | positive | minus | primary => exact signed_lies hcd hts he
    | @predicate t tail =>
      obtain ⟨subject, hsubject, he⟩ := exists_of_bind he
      have htail : tail ∈ [t, tail] := List.mem_cons_of_mem t List.mem_cons_self
      have hoperands : ∀ u ∈ tail.children, Lands c d u := fun u hu =>
        ((ih tail htail).2 u hu).lands ((hholds tail htail).children u hu)
      exact predicate_lies hcd (hts t List.mem_cons_self subject hsubject) hoperands he
    | boolean | null =>
      cases he
      exact .leaf hcd rfl (fun _ => trivial) rfl
    | timestamp =>
      rw [expr_timestamp] at he
      exact timestamp_lies hcd he
    | date =>
      rw [expr_date] at he
      exact date_lies hcd he
    | interval =>
      obtain ⟨e₁, he₁, he⟩ := exists_of_bind he
      obtain ⟨e₂, he₂, he⟩ := exists_of_bind he
      cases he
      obtain ⟨_, hbounds⟩ := List.forall_mem_cons.1 hts
      obtain ⟨hstart, hbounds⟩ := List.forall_mem_cons.1 hbounds
      refine .node hcd rfl (fun _ => trivial) fun m hm => ?_
      rcases List.mem_pair.1 hm with rfl | rfl
      · exact hstart _ he₁
      · exact hbounds _ List.mem_cons_self _ he₂
    | box | call =>
      obtain ⟨es, hes, he⟩ := exists_of_bind he
      cases he
      exact .node hcd rfl (fun _ => trivial) (each_lies (List.forall_mem_cons.1 hts).2 hes)
    | geometry =>
      obtain ⟨g, -, he⟩ := exists_of_bind he
      cases he
      exact ofGeometry_lies hcd g
    | parenthesized =>
      obtain ⟨es, hes, he⟩ := exists_of_bind he
      have hparts := each_lies hts hes
      obtain _ | ⟨e, _ | ⟨e', es⟩⟩ := es
      all_goals
        cases he
        exact .node hcd rfl (fun _ => trivial) hparts
    | property =>
      cases hd
      exact property_lies hbody he

end OfText

theorem Grammar.Cursor.Leads.offset_le (h : Cursor.Leads c d) :
    c.position.offset ≤ d.position.offset := by
  obtain ⟨w, -, hpos⟩ := h
  rw [hpos, Position.offset_after]
  exact Nat.le_add_right _ _

namespace Expr.Lies

variable {c d : Cursor} {e m : Expr}

theorem within (h : e.Lies c d) :
    c.position.offset ≤ e.span.start ∧ e.span.stop ≤ d.position.offset := by
  cases h with
  | mk a b w ha _ _ hb hspan =>
    rw [hspan]
    exact ⟨ha.offset_le, hb.offset_le⟩

theorem part_within (h : e.Lies c d) (hm : m ∈ e.parts) :
    e.span.start ≤ m.span.start ∧ m.span.stop ≤ e.span.stop := by
  cases h with
  | mk a b w _ _ _ _ hspan _ hparts =>
    rw [hspan]
    exact (hparts m hm).within

theorem marks (h : e.Lies (Cursor.ofText text.toList) d) :
    ∃ stretch, e.span.Marks text stretch ∧ e.ReadFrom stretch.toList := by
  cases h with
  | mk a b w ha happ hpos _ hspan hread =>
    obtain ⟨before, hbefore, hstart⟩ := ha
    have htext : text = .ofList (before ++ w ++ b.rest) := by
      rw [List.append_assoc, happ, hbefore]
      exact String.ofList_toList.symm
    have hstop : b.position = Position.origin.after (before ++ w) := by
      rw [after_append, hpos, hstart]
      rfl
    refine ⟨.ofList w, ?_, ?_⟩
    · rw [hspan, hstart, hstop, htext]
      exact Span.marks_between before w b.rest
    · rw [String.toList_ofList]
      exact hread

end Expr.Lies

theorem Expr.lies_of_ofText (h : Expr.ofText text = .ok e) :
    ∃ d, e.Lies (Cursor.ofText text.toList) d := by
  obtain ⟨d, t, ht, -, he⟩ := derives_of_ofText h
  exact ⟨d, ((OfText.settles t).1 _ _ _ ht e he).mono (.skipBlanks _) (.refl d)⟩

/-- A filter that is read from text marks, with each of its nodes, the stretch of the text that the
node is read from, and the stretches of the parts of a node lie in that of the node. A filter that
is read from JSON marks nothing. -/
theorem Expr.span_of_read :
    (∀ text e n, Expr.ofText text = .ok e → e.Contains n →
      (∃ stretch, n.span.Marks text stretch ∧ n.ReadFrom stretch.toList) ∧
      n.span.start ≤ n.span.stop ∧ n.span.stop ≤ text.utf8ByteSize ∧
      ∀ m ∈ n.parts, n.span.start ≤ m.span.start ∧ m.span.stop ≤ n.span.stop) ∧
    (∀ j e n, Expr.ofJsonFilter j = .ok e → e.Contains n → n.span = .zero) ∧
    ∀ text e n, Expr.ofJsonText text = .ok e → e.Contains n → n.span = .zero := by
  refine ⟨?_, ?_, ?_⟩
  · intro text e n he hn
    obtain ⟨d, hlies⟩ := Expr.lies_of_ofText he
    have hnode := hlies.contains hn
    obtain ⟨stretch, hmarks, hread⟩ := hnode.marks
    exact ⟨⟨stretch, hmarks, hread⟩, hmarks.bounds.1, hmarks.bounds.2, fun m hm =>
      hnode.part_within hm⟩
  · intro j e n he hn
    exact Expr.span_of_unplaced (OfJson.placeless j e he) hn
  · intro text e n he hn
    rw [Expr.ofJsonText] at he
    split at he
    · exact Expr.span_of_unplaced (OfJson.placeless _ e he) hn
    · cases he

/-- In two lines, with a character of two bytes: the span of a comparison takes in the blanks behind
it, those of its operands do not. -/
theorem Expr.span_of_read_lines :
    (∃ e, Expr.ofText "\"höhe\" >= 1.5\n  AND name = 'x''y'" = .ok e ∧
      (e.parts.flatMap fun m => m.span :: m.parts.map Expr.span) =
        [⟨0, 17, 1, 1⟩, ⟨0, 7, 1, 1⟩, ⟨11, 14, 1, 11⟩, ⟨21, 34, 2, 7⟩, ⟨21, 25, 2, 7⟩,
          ⟨28, 34, 2, 14⟩] ∧
      ∀ n, e.Contains n → ∃ stretch,
        n.span.Marks "\"höhe\" >= 1.5\n  AND name = 'x''y'" stretch ∧
          n.ReadFrom stretch.toList) ∧
    ∃ e, Expr.ofJsonText "[1, \x7b\"property\": \"a\"\x7d]" = .ok e ∧
      ∀ n, e.Contains n → n.span = .zero := by
  have hspans : ((Expr.ofText "\"höhe\" >= 1.5\n  AND name = 'x''y'").toOption.map fun e =>
      e.parts.flatMap fun m => m.span :: m.parts.map Expr.span) =
        some [⟨0, 17, 1, 1⟩, ⟨0, 7, 1, 1⟩, ⟨11, 14, 1, 11⟩, ⟨21, 34, 2, 7⟩, ⟨21, 25, 2, 7⟩,
          ⟨28, 34, 2, 14⟩] := by
    decide +kernel
  have hjson : (Expr.ofJsonText "[1, \x7b\"property\": \"a\"\x7d]").isOk = true := by decide +kernel
  constructor
  · cases hr : Expr.ofText "\"höhe\" >= 1.5\n  AND name = 'x''y'" with
    | ok e =>
      rw [hr] at hspans
      exact ⟨e, rfl, Option.some.inj hspans, fun n hn => (Expr.span_of_read.1 _ e n hr hn).1⟩
    | error =>
      rw [hr] at hspans
      cases hspans
  · cases hr : Expr.ofJsonText "[1, \x7b\"property\": \"a\"\x7d]" with
    | ok e => exact ⟨e, rfl, fun n hn => Expr.span_of_read.2.2 _ e n hr hn⟩
    | error =>
      rw [hr] at hjson
      cases hjson

end FeatureFilter
