import FeatureFilter.Proofs.Sql.Acceptance
import FeatureFilter.Proofs.Sql.Spacing

namespace FeatureFilter

namespace Sql

/-- Texts in which every parenthesis has its partner. Those in quoted names do not count. -/
inductive Balanced : List Char → Prop
  | nil : Balanced []
  | char : ch ≠ '(' → ch ≠ ')' → ch ≠ '"' → Balanced cs → Balanced (ch :: cs)
  | name (name : List Char) : Balanced cs → Balanced (Text.quote '"' name ++ cs)
  | parens : Balanced inside → Balanced cs → Balanced ('(' :: (inside ++ ')' :: cs))

namespace Balanced

theorem append (h : Balanced cs) (h' : Balanced ds) : Balanced (cs ++ ds) := by
  induction h with
  | nil => exact h'
  | char hopen hclose hquote _ ih => exact .char hopen hclose hquote ih
  | name name _ ih =>
    rw [List.append_assoc]
    exact .name name ih
  | parens hinside _ _ ih =>
    rw [List.cons_append, List.append_assoc, List.cons_append]
    exact .parens hinside ih

theorem of_plain (h : ∀ ch ∈ cs, ch ≠ '(' ∧ ch ≠ ')' ∧ ch ≠ '"') : Balanced cs := by
  induction cs with
  | nil => exact .nil
  | cons ch cs ih =>
    obtain ⟨⟨hopen, hclose, hquote⟩, hcs⟩ := List.forall_mem_cons.1 h
    exact .char hopen hclose hquote (ih hcs)

theorem outer (h : Balanced inside) : Balanced ('(' :: (inside ++ [')'])) := .parens h .nil

theorem quote (name : List Char) : Balanced (Text.quote '"' name) := by
  rw [← List.append_nil (Text.quote _ _)]
  exact .name name .nil

theorem chainText (names : List (List Char)) : Balanced (chainText names) := by
  induction names with
  | nil => exact .nil
  | cons name names ih =>
    by_cases hn : names = []
    · rw [hn, chainText_singleton]
      exact .quote name
    · rw [chainText_cons name hn]
      exact (Balanced.quote name).append (.char (by decide) (by decide) (by decide) ih)

theorem placeholder (k : Nat) : Balanced (placeholder k).toList := by
  apply of_plain
  intro ch hch
  rcases mem_placeholder hch with rfl | hdigit
  · decide
  · refine ⟨?_, ?_, ?_⟩ <;> rintro rfl <;> cases hdigit

end Balanced

def Token.isParenthesis : Token → Bool
  | .lparen | .rparen => true
  | _ => false

theorem Token.mem_text_of_not_isParenthesis {t : Token} (ht : t.isParenthesis = false) :
    ∀ ch ∈ t.text.toList, ch ≠ '(' ∧ ch ≠ ')' ∧ ch ≠ '"' := by
  have h : all.all fun t => t.isParenthesis ||
      t.text.toList.all (fun ch => ch ≠ '(' ∧ ch ≠ ')' ∧ ch ≠ '"') := by decide +kernel
  have hplain := List.all_eq_true.1 h t (mem_all t)
  rw [ht, Bool.false_or] at hplain
  exact fun ch hch => of_decide_eq_true (List.all_eq_true.1 hplain ch hch)

inductive Nested : List Mark → Prop
  | nil : Nested []
  | token : t.isParenthesis = false → Nested ms → Nested (.token t :: ms)
  | column : Nested ms → Nested (.column name :: ms)
  | hole : Nested ms → Nested (.hole :: ms)
  | parens : Nested inside → Nested ms → Nested (parenthesized inside ++ ms)

namespace Nested

theorem append (h : Nested ms) (h' : Nested ns) : Nested (ms ++ ns) := by
  induction h with
  | nil => exact h'
  | token ht _ ih => exact .token ht ih
  | column _ ih => exact .column ih
  | hole _ ih => exact .hole ih
  | parens hinside _ _ ih =>
    rw [List.append_assoc]
    exact .parens hinside ih

theorem parenthesized (h : Nested ms) : Nested (parenthesized ms) := by
  rw [← List.append_nil (Sql.parenthesized ms)]
  exact .parens h .nil

theorem cons (t : Token) (h : Nested ms) (ht : t.isParenthesis = false := by rfl) :
    Nested (.token t :: ms) := .token ht h

theorem join (h : Nested ms) (t : Token) (h' : Nested ns)
    (ht : t.isParenthesis = false := by rfl) : Nested (ms ++ .token t :: ns) :=
  h.append (.token ht h')

theorem marksBehind (h : ∀ o ∈ os, Nested (Outline.marks o)) : Nested (Outline.marksBehind os) := by
  induction os with
  | nil => exact .nil
  | cons o os ih =>
    obtain ⟨ho, hos⟩ := List.forall_mem_cons.1 h
    exact .cons .comma (ho.append (ih hos))

theorem balanced_text (h : Nested ms) (k : Nat) : Balanced (text k ms) := by
  induction h generalizing k with
  | nil => exact .nil
  | token ht _ ih =>
    exact (Balanced.of_plain (Token.mem_text_of_not_isParenthesis ht)).append (ih k)
  | column _ ih =>
    rw [text, quoteColumn_toList]
    exact (Balanced.chainText _).append (ih k)
  | hole _ ih => exact (Balanced.placeholder k).append (ih (k + 1))
  | parens _ _ ihi ih =>
    rw [text_append, text_parenthesized]
    exact (ihi k).outer.append (ih _)

end Nested

namespace Outline

def isParenthesized : Outline → Bool
  | .binary .. | .between .. | .isIn .. | .isNull .. | .not _ | .minus _ | .list .. => true
  | .reject _ | .null | .bool _ | .hole | .geometry | .column _ | .spatial .. | .distanceWithin ..
  | .box .. => false

theorem exists_nested (o : Outline) :
    ∃ ms, Nested ms ∧ o.marks = if o.isParenthesized then Sql.parenthesized ms else ms := by
  have nested {o : Outline}
      (h : ∃ ms, Nested ms ∧ o.marks = if o.isParenthesized then Sql.parenthesized ms else ms) :
      Nested o.marks := by
    obtain ⟨ms, hms, he⟩ := h
    rw [he]
    split
    · exact hms.parenthesized
    · exact hms
  induction o with
  | reject r => exact ⟨[], .nil, rfl⟩
  | null | bool => exact ⟨_, .token rfl .nil, rfl⟩
  | hole => exact ⟨_, .hole .nil, rfl⟩
  | column name => exact ⟨_, .column .nil, rfl⟩
  | geometry =>
    have h : Nested [.hole, .token .comma, .token .srid] := .hole (.cons .comma (.cons .srid .nil))
    exact ⟨_, h.parenthesized.cons .geometryFromText, rfl⟩
  | binary op left right hl hr =>
    have hop : op.token.isParenthesis = false := by cases op <;> rfl
    exact ⟨_, (nested hl).join op.token (nested hr) hop, rfl⟩
  | between negated subject low high hs hl hh =>
    exact ⟨_, ((nested hs).join (.between negated) (nested hl)).join .and (nested hh), rfl⟩
  | isIn negated subject first rest hs hf hr =>
    have hlist := (nested hf).append (.marksBehind fun o ho => nested (hr o ho))
    exact ⟨_, (nested hs).join (.isIn negated) hlist.parenthesized, rfl⟩
  | isNull negated operand ih => exact ⟨_, (nested ih).join (.isNull negated) .nil, rfl⟩
  | not operand ih => exact ⟨_, (nested ih).parenthesized.cons .not, rfl⟩
  | minus operand ih => exact ⟨_, (nested ih).cons .minus, rfl⟩
  | list first rest hf hr =>
    exact ⟨_, (nested hf).append (.marksBehind fun o ho => nested (hr o ho)), rfl⟩
  | spatial op subject other hs ho =>
    exact ⟨_, ((nested hs).join .comma (nested ho)).parenthesized.cons (.spatial op), rfl⟩
  | distanceWithin first second distance hf hs hd =>
    have h := ((nested hs).join .geography .nil).join .comma (nested hd)
    have h := ((nested hf).join .geography .nil).join .comma h
    exact ⟨_, h.parenthesized.cons .distanceWithin, rfl⟩
  | box west south east north hw hs he hn =>
    have h := (nested he).join .comma ((nested hn).join .comma (.cons .srid .nil))
    have h := (nested hw).join .comma ((nested hs).join .comma h)
    exact ⟨_, h.parenthesized.cons .envelope, rfl⟩

theorem head?_text_ne {o : Outline} (h : o.isParenthesized = false) (k : Nat) :
    (text k o.marks).head? ≠ some '(' := by
  have token {t : Token} (ht : t.isParenthesis = false) (ms : List Mark) :
      (text k (.token t :: ms)).head? ≠ some '(' := by
    obtain ⟨ch, cs, he, -⟩ := t.exists_text_eq_cons
    have hch := Token.mem_text_of_not_isParenthesis ht ch (by rw [he]; exact List.mem_cons_self)
    rw [text, he]
    exact fun hhead => hch.1 (Option.some.inj hhead)
  cases o with
  | binary | between | isIn | isNull | not | minus | list => cases h
  | reject r => exact (Option.some_ne_none _).symm
  | hole =>
    rw [marks, text_hole, List.head?_cons]
    decide
  | column name =>
    obtain ⟨cs, he⟩ := text_column k name []
    rw [marks, he, List.head?_cons]
    decide
  | null | bool | geometry | spatial | distanceWithin | box => exact token rfl _

/-- The marks of a normal form in parentheses: those that it is written in, or a pair around it. -/
def enclosed (o : Outline) : List Mark :=
  if o.isParenthesized then o.marks else Sql.parenthesized o.marks

theorem exists_enclosed (o : Outline) :
    ∃ ms, Nested ms ∧ o.enclosed = Sql.parenthesized ms := by
  obtain ⟨ms, hms, hmarks⟩ := o.exists_nested
  refine ⟨ms, hms, ?_⟩
  rw [enclosed, hmarks]
  cases o.isParenthesized with
  | true => rfl
  | false => rfl

end Outline

theorem closesAtEnd_quote (depth : Nat) (name rest : List Char) :
    closesAtEnd depth false (Text.quote '"' name ++ rest) = closesAtEnd depth false rest := by
  have hinside : closesAtEnd depth true (Text.double '"' name ++ '"' :: rest) =
      closesAtEnd depth false rest := by
    induction name with
    | nil => simp only [Text.double, List.nil_append, closesAtEnd, if_true, Bool.not_true]
    | cons ch name ih =>
      by_cases hq : ch = '"'
      · simp only [Text.double, hq, if_true, List.cons_append, closesAtEnd, Bool.not_true,
          Bool.not_false, ih]
      · simp only [Text.double, hq, if_false, if_true, List.cons_append, closesAtEnd, ih]
  rw [quote_append, closesAtEnd, if_pos rfl]
  exact hinside

/-- Inside a parenthesis, the scan passes over a balanced text. -/
theorem Balanced.closesAtEnd_append (h : Balanced cs) (depth : Nat) (rest : List Char) :
    closesAtEnd (depth + 1) false (cs ++ rest) = closesAtEnd (depth + 1) false rest := by
  induction h generalizing depth rest with
  | nil => rfl
  | char hopen hclose hquote _ ih =>
    simp only [List.cons_append, closesAtEnd, hopen, hclose, hquote, if_false, Bool.false_eq_true,
      ih]
  | name name _ ih => rw [List.append_assoc, closesAtEnd_quote, ih]
  | parens _ _ ihi ih =>
    rw [List.cons_append, List.append_assoc, List.cons_append, closesAtEnd, if_neg (by decide),
      if_neg (by decide), if_pos rfl, ihi, closesAtEnd, if_neg (by decide), if_neg (by decide),
      if_neg (by decide), if_pos rfl, Nat.add_sub_cancel, if_neg (Nat.succ_ne_zero depth), ih]

/-- The scan finds the partner of the first parenthesis, and looks whether it is the last
character. -/
theorem Balanced.isParenthesized_iff (h : Balanced inside) (rest : List Char) :
    isParenthesized ('(' :: (inside ++ ')' :: rest)) = true ↔ rest = [] := by
  have hscan : closesAtEnd 0 false ('(' :: (inside ++ ')' :: rest)) = rest.isEmpty := by
    rw [closesAtEnd, if_neg (by decide), if_neg (by decide), if_pos rfl, h.closesAtEnd_append]
    rfl
  rw [isParenthesized, hscan, List.head?_cons, beq_self_eq_true, Bool.true_and, List.isEmpty_iff]

namespace Fragment

theorem sql_of_balanced (h : Balanced inside) (params : List Value) :
    (Fragment.of (.ofList ('(' :: (inside ++ [')']))) params).sql =
      .ofList ('(' :: (inside ++ [')'])) := by
  rw [Fragment.of, String.toList_ofList]
  exact if_pos ((h.isParenthesized_iff []).2 rfl)

theorem sql_of_head {text : String} (h : text.toList.head? ≠ some '(') (params : List Value) :
    (Fragment.of text params).sql = "(" ++ text ++ ")" := by
  apply if_neg
  rw [isParenthesized, beq_false_of_ne h, Bool.false_and]
  exact Bool.false_ne_true

/-- The fragment of a normal form stands in parentheses. -/
theorem of_outline (o : Outline) (k : Nat) (params : List Value) :
    Fragment.of (.ofList (text k o.marks)) params = ⟨.ofList (text k o.enclosed), params⟩ := by
  have hsql :
      (Fragment.of (.ofList (text k o.marks)) params).sql = .ofList (text k o.enclosed) := by
    cases hp : o.isParenthesized with
    | true =>
      obtain ⟨ms, hms, hmarks⟩ := o.exists_enclosed
      have hown : o.enclosed = o.marks := if_pos hp
      rw [← hown, hmarks, text_parenthesized]
      exact sql_of_balanced (hms.balanced_text k) params
    | false =>
      have hpair : o.enclosed = parenthesized o.marks := if_neg (Bool.eq_false_iff.1 hp)
      have hhead := Outline.head?_text_ne hp k
      rw [← String.toList_ofList (l := text k o.marks)] at hhead
      rw [sql_of_head hhead, hpair, text_parenthesized, ← String.toList_inj]
      simp
  have hparts (f : Fragment) : f = ⟨f.sql, f.params⟩ := rfl
  rw [← hsql]
  exact hparts _

end Fragment
end Sql

open Sql

def Expr.writesParentheses : Expr → Bool
  | .binary _ (.spatial _) .. => false
  | .binary .. | .advanced .. | .unary .. | .group .. | .array .. | .isNull .. => true
  | .call .. | .property .. | .literal .. | .geometry .. | .geometries .. | .box .. | .interval ..
  | .operator .. => false

theorem Expr.Outlined.isParenthesized_eq (h : Expr.Outlined c e o) :
    o.isParenthesized = e.writesParentheses := by
  cases h with
  | literal value ho =>
    cases ho
    cases value <;> rfl
  | _ => rfl

theorem Expr.isParenthesized_outline {e : Expr} (hr : (e.outline c).rejections = []) :
    (e.outline c).isParenthesized = e.writesParentheses :=
  (outlined_of_rejections hr).isParenthesized_eq

theorem compileExpr_of_admits {e : Expr} (hr : (e.outline c).rejections = [])
    (hdepth : options.Admits e) :
    compileExpr e c options =
      .ok ⟨.ofList (text options.paramOffset (e.outline c).enclosed), (render c e).values⟩ := by
  rw [compileExpr_eq, (Options.admits_iff options e).1 hdepth, hr, ← Fragment.of_outline]
  rfl

/-- A fragment is balanced and stands in a pair of parentheses: the first of them is closed by the
last character, and by no character before it. The pair is that of the filter itself, or it is put
around a filter that is not written in parentheses. -/
theorem compileExpr_outerParentheses (h : compileExpr e c options = .ok f) :
    Balanced f.sql.toList ∧
    (∃ inside, Balanced inside ∧ f.sql.toList = '(' :: (inside ++ [')'])) ∧
    (∀ inside rest, Balanced inside → f.sql.toList = '(' :: (inside ++ ')' :: rest) →
      rest = []) ∧
    f.sql = if e.writesParentheses then ((Draft.empty c options.paramOffset).render e).2.sql
      else "(" ++ ((Draft.empty c options.paramOffset).render e).2.sql ++ ")" := by
  obtain ⟨hr, -, hf⟩ := compileExpr_ok h
  obtain ⟨ms, hms, henclosed⟩ := (e.outline c).exists_enclosed
  have hinside := hms.balanced_text options.paramOffset
  have hsql : f.sql = .ofList (text options.paramOffset (e.outline c).enclosed) := by
    rw [hf, Fragment.of_outline]
  have htext : f.sql.toList = '(' :: (text options.paramOffset ms ++ [')']) := by
    rw [hsql, String.toList_ofList, henclosed, text_parenthesized]
  refine ⟨?_, ⟨_, hinside, htext⟩, ?_, ?_⟩
  · rw [htext]
    exact hinside.outer
  · intro inside rest hbalanced hrest
    apply (hbalanced.isParenthesized_iff rest).1
    rw [← hrest, htext]
    exact (hinside.isParenthesized_iff []).2 rfl
  · rw [hsql, Draft.sql_render hr, Outline.enclosed, Expr.isParenthesized_outline hr]
    cases e.writesParentheses with
    | true => rfl
    | false =>
      rw [← String.toList_inj]
      simp [text_parenthesized]

/-- A column whose name would close the parentheses around it and open others. -/
theorem compileExpr_outerParentheses_column :
    compileExpr (.property .zero "name")
      ((Collection.new "lakes" ["name"] "geom").withProperty "name" ")\"(") {} =
        .ok ⟨"(\")\"\"(\")", []⟩ ∧
    compileExpr (.isNull .zero false (.property .zero "name"))
      ((Collection.new "lakes" ["name"] "geom").withProperty "name" ")\"(") {} =
        .ok ⟨"(\")\"\"(\" IS NULL)", []⟩ ∧
    Balanced "(\")\"\"(\")".toList ∧ Balanced "(\")\"\"(\" IS NULL)".toList := by
  have hname : compileExpr (.property .zero "name")
      ((Collection.new "lakes" ["name"] "geom").withProperty "name" ")\"(") {} =
        .ok ⟨"(\")\"\"(\")", []⟩ := rfl
  have hnull : compileExpr (.isNull .zero false (.property .zero "name"))
      ((Collection.new "lakes" ["name"] "geom").withProperty "name" ")\"(") {} =
        .ok ⟨"(\")\"\"(\" IS NULL)", []⟩ := rfl
  exact ⟨hname, hnull, (compileExpr_outerParentheses hname).1,
    (compileExpr_outerParentheses hnull).1⟩

end FeatureFilter
