import FeatureFilter.Proofs.Sql.OuterParentheses

namespace FeatureFilter

namespace Sql

/-- The greatest number of parentheses that are open at once in a text, in front of which `depth`
are open. Those in quoted names do not count. -/
def nesting (depth : Nat) (quoted : Bool) : List Char → Nat
  | [] => depth
  | ch :: cs =>
    if ch = '"' then nesting depth (!quoted) cs
    else if quoted then nesting depth quoted cs
    else if ch = '(' then nesting (depth + 1) quoted cs
    else if ch = ')' then max depth (nesting (depth - 1) quoted cs)
    else nesting depth quoted cs

def Fragment.nesting (f : Fragment) : Nat := Sql.nesting 0 false f.sql.toList

/-- A text leads `n` levels deeper at most, and back again. -/
def NestsTo (n : Nat) (cs : List Char) : Prop :=
  ∀ depth rest, nesting depth false (cs ++ rest) ≤ max (depth + n) (nesting depth false rest)

theorem nesting_quote (depth : Nat) (name rest : List Char) :
    nesting depth false (Text.quote '"' name ++ rest) = nesting depth false rest := by
  have hinside : nesting depth true (Text.double '"' name ++ '"' :: rest) =
      nesting depth false rest := by
    induction name with
    | nil => simp only [Text.double, List.nil_append, nesting, if_true, Bool.not_true]
    | cons ch name ih =>
      by_cases hq : ch = '"'
      · simp only [Text.double, hq, if_true, List.cons_append, nesting, Bool.not_true,
          Bool.not_false, ih]
      · simp only [Text.double, hq, if_false, if_true, List.cons_append, nesting, ih]
  rw [quote_append, nesting, if_pos rfl]
  exact hinside

example : nesting 0 false "(NOT ((NOT (\"(((\"))))".toList = 4 := by decide

namespace NestsTo

theorem mono (h : NestsTo n cs) (hn : n ≤ m) : NestsTo m cs := by
  intro depth rest
  have hdepth := h depth rest
  omega

theorem append (h : NestsTo n cs) (h' : NestsTo n ds) : NestsTo n (cs ++ ds) := by
  intro depth rest
  have hfirst := h depth (ds ++ rest)
  have hsecond := h' depth rest
  rw [List.append_assoc]
  omega

theorem nil (n : Nat) : NestsTo n [] := by
  intro depth rest
  exact Nat.le_max_right _ _

theorem of_plain (h : ∀ ch ∈ cs, ch ≠ '(' ∧ ch ≠ ')' ∧ ch ≠ '"') (n : Nat) : NestsTo n cs := by
  induction cs with
  | nil => exact nil n
  | cons ch cs ih =>
    obtain ⟨⟨hopen, hclose, hquote⟩, hcs⟩ := List.forall_mem_cons.1 h
    intro depth rest
    rw [List.cons_append, nesting, if_neg hquote, if_neg Bool.false_ne_true, if_neg hopen,
      if_neg hclose]
    exact ih hcs depth rest

theorem quote (name : List Char) (n : Nat) : NestsTo n (Text.quote '"' name) := by
  intro depth rest
  rw [nesting_quote]
  exact Nat.le_max_right _ _

theorem outer (h : NestsTo n cs) : NestsTo (n + 1) ('(' :: (cs ++ [')'])) := by
  intro depth rest
  have hinside := h (depth + 1) (')' :: rest)
  rw [nesting, if_neg (by decide), if_neg Bool.false_ne_true, if_neg (by decide), if_pos rfl,
    Nat.add_sub_cancel] at hinside
  rw [List.cons_append, List.append_assoc, nesting, if_neg (by decide), if_neg Bool.false_ne_true,
    if_pos rfl]
  exact Nat.le_trans hinside (by omega)

theorem chainText (names : List (List Char)) (n : Nat) : NestsTo n (chainText names) := by
  induction names with
  | nil => exact nil n
  | cons name names ih =>
    by_cases hn : names = []
    · rw [hn, chainText_singleton]
      exact quote name n
    · have hpoint : NestsTo n ['.'] := of_plain (List.forall_mem_singleton.2 (by decide)) n
      rw [chainText_cons name hn]
      exact (quote name n).append (hpoint.append ih)

theorem placeholder (k n : Nat) : NestsTo n (placeholder k).toList := by
  apply of_plain
  intro ch hch
  rcases mem_placeholder hch with rfl | hdigit
  · decide
  · refine ⟨?_, ?_, ?_⟩ <;> rintro rfl <;> cases hdigit

end NestsTo

/-- Marks whose text leads `n` levels deeper at most, whatever the numbers of the placeholders. -/
def MarksNestTo (n : Nat) (ms : List Mark) : Prop := ∀ k, NestsTo n (text k ms)

namespace MarksNestTo

theorem mono (h : MarksNestTo n ms) (hn : n ≤ m) : MarksNestTo m ms := fun k => (h k).mono hn

theorem nil (n : Nat) : MarksNestTo n [] := fun _ => .nil n

theorem append (h : MarksNestTo n ms) (h' : MarksNestTo n ns) : MarksNestTo n (ms ++ ns) := by
  intro k
  rw [text_append]
  exact (h k).append (h' _)

theorem cons (t : Token) (h : MarksNestTo n ms) (ht : t.isParenthesis = false := by rfl) :
    MarksNestTo n (.token t :: ms) :=
  fun k => (NestsTo.of_plain (Token.mem_text_of_not_isParenthesis ht) n).append (h k)

theorem join (h : MarksNestTo n ms) (t : Token) (h' : MarksNestTo n ns)
    (ht : t.isParenthesis = false := by rfl) : MarksNestTo n (ms ++ .token t :: ns) :=
  h.append (.cons t h' ht)

theorem column (name : String) (n : Nat) : MarksNestTo n [.column name] := by
  intro k
  rw [text, quoteColumn_toList]
  exact (NestsTo.chainText _ n).append (.nil n)

theorem hole (h : MarksNestTo n ms) : MarksNestTo n (.hole :: ms) :=
  fun k => (NestsTo.placeholder k n).append (h (k + 1))

theorem parenthesized (h : MarksNestTo n ms) : MarksNestTo (n + 1) (parenthesized ms) := by
  intro k
  rw [text_parenthesized]
  exact (h k).outer

theorem marksBehind (h : ∀ o ∈ os, MarksNestTo n (Outline.marks o)) :
    MarksNestTo n (Outline.marksBehind os) := by
  induction os with
  | nil => exact nil n
  | cons o os ih =>
    obtain ⟨ho, hos⟩ := List.forall_mem_cons.1 h
    exact .cons .comma (ho.append (ih hos))

end MarksNestTo

namespace Outline

/-- A normal form adds two levels to those of its parts, the second of which is its own outer pair
if it has one. -/
theorem marksNestTo {o : Outline} (h : ∀ p ∈ o.parts, MarksNestTo n p.marks) :
    MarksNestTo (if o.isParenthesized then n + 2 else n + 1) o.marks := by
  have hsucc : n + 1 ≤ n + 2 := Nat.le_succ _
  cases o with
  | reject => exact .nil _
  | null | bool => exact .cons _ (.nil _)
  | hole => exact .hole (.nil _)
  | column name => exact .column name _
  | geometry =>
    have hargs : MarksNestTo n [.hole, .token .comma, .token .srid] :=
      .hole (.cons _ (.cons _ (.nil n)))
    exact .cons _ hargs.parenthesized
  | binary op left right =>
    have hleft := h left (.head _)
    have hright := h right (.tail _ (.head _))
    have hop : op.token.isParenthesis = false := by cases op <;> rfl
    exact (hleft.join op.token hright hop).parenthesized.mono hsucc
  | between negated subject low high =>
    have hsubject := h subject (.head _)
    have hlow := h low (.tail _ (.head _))
    have hhigh := h high (.tail _ (.tail _ (.head _)))
    exact ((hsubject.join (.between negated) hlow).join .and hhigh).parenthesized.mono hsucc
  | isIn negated subject first rest =>
    have hsubject := h subject (.head _)
    have hfirst := h first (.tail _ (.head _))
    have hrest := MarksNestTo.marksBehind fun o ho => h o (.tail _ (.tail _ ho))
    have hlist := (hfirst.append hrest).parenthesized
    exact ((hsubject.mono (Nat.le_succ n)).join (.isIn negated) hlist).parenthesized
  | isNull negated operand =>
    have hoperand := h operand (.head _)
    exact (hoperand.join (.isNull negated) (.nil n)).parenthesized.mono hsucc
  | not operand =>
    have hoperand := (h operand (.head _)).parenthesized
    exact (MarksNestTo.cons .not hoperand).parenthesized
  | minus operand =>
    have hoperand := h operand (.head _)
    exact (MarksNestTo.cons .minus hoperand).parenthesized.mono hsucc
  | list first rest =>
    have hfirst := h first (.head _)
    have hrest := MarksNestTo.marksBehind fun o ho => h o (.tail _ ho)
    exact (hfirst.append hrest).parenthesized.mono hsucc
  | spatial op subject other =>
    have hsubject := h subject (.head _)
    have hother := h other (.tail _ (.head _))
    exact .cons _ (hsubject.join .comma hother).parenthesized
  | distanceWithin first second distance =>
    have hfirst := (h first (.head _)).join .geography (.nil n)
    have hsecond := (h second (.tail _ (.head _))).join .geography (.nil n)
    have hdistance := h distance (.tail _ (.tail _ (.head _)))
    exact .cons _ (hfirst.join .comma (hsecond.join .comma hdistance)).parenthesized
  | box west south east north =>
    have hwest := h west (.head _)
    have hsouth := h south (.tail _ (.head _))
    have heast := h east (.tail _ (.tail _ (.head _)))
    have hnorth := h north (.tail _ (.tail _ (.tail _ (.head _))))
    have hsrid : MarksNestTo n [.token .srid] := .cons _ (.nil n)
    exact .cons _ (hwest.join .comma (hsouth.join .comma (heast.join .comma
      (hnorth.join .comma hsrid)))).parenthesized

theorem marksNestTo_enclosed {o : Outline} (h : ∀ p ∈ o.parts, MarksNestTo n p.marks) :
    MarksNestTo (n + 2) o.enclosed := by
  have hmarks := marksNestTo h
  rw [enclosed]
  cases hp : o.isParenthesized with
  | true =>
    rw [hp, if_pos rfl] at hmarks
    exact hmarks
  | false =>
    rw [hp, if_neg Bool.false_ne_true] at hmarks
    exact hmarks.parenthesized

end Outline
end Sql

namespace Expr

open Sql

theorem depth_le_depthEach {es : List Expr} (h : e ∈ es) : e.depth ≤ depthEach es := by
  induction es with
  | nil => cases h
  | cons a es ih =>
    rw [depthEach]
    rcases List.mem_cons.1 h with rfl | h
    · exact Nat.le_max_left _ _
    · exact Nat.le_trans (ih h) (Nat.le_max_right _ _)

theorem depth_lt_of_mem_parts {e : Expr} (h : a ∈ e.parts) : a.depth < e.depth := by
  cases e with
  | binary s op left right | interval s left right =>
    simp only [parts, List.mem_cons, List.not_mem_nil, or_false] at h
    rw [depth]
    rcases h with rfl | rfl <;> omega
  | call | advanced | box | array =>
    rw [depth]
    exact Nat.lt_succ_of_le (depth_le_depthEach h)
  | unary | group | isNull =>
    cases List.mem_singleton.1 h
    rw [depth]
    exact Nat.lt_succ_self _
  | property | literal | geometry | geometries | operator => cases h

theorem depth_pos (e : Expr) : 0 < e.depth := by
  cases e <;> exact Nat.succ_pos _

theorem marksNestTo_parts (c : Collection) (e : Expr) :
    ∀ p ∈ (e.outline c).parts, MarksNestTo (2 * (e.depth - 1)) p.marks := by
  induction e using inductionOnParts with
  | node e ih =>
    intro p hp
    obtain ⟨a, ha, rfl⟩ := mem_parts_of_mem_parts_outline hp
    have hlt := depth_lt_of_mem_parts ha
    have hpos := a.depth_pos
    apply (Outline.marksNestTo (ih a ha)).mono
    split <;> omega

theorem marksNestTo_enclosed_outline (c : Collection) (e : Expr) :
    MarksNestTo (2 * e.depth) (e.outline c).enclosed := by
  have hpos := e.depth_pos
  exact (Outline.marksNestTo_enclosed (marksNestTo_parts c e)).mono (by omega)

end Expr

open Sql

theorem nesting_le_of_compileExpr (h : compileExpr e c options = .ok f) :
    f.nesting ≤ 2 * e.depth := by
  obtain ⟨-, -, hf⟩ := compileExpr_ok h
  have hnests := Expr.marksNestTo_enclosed_outline c e options.paramOffset 0 []
  rw [List.append_nil, Nat.zero_add, nesting, Nat.max_zero] at hnests
  rw [hf, Fragment.of_outline, Fragment.nesting, String.toList_ofList]
  exact hnests

/-- A limit decides whether a filter is compiled and not what it becomes. -/
theorem compileExpr_withLimit (h : compileExpr e c options = .ok f)
    (ha : Options.Admits { options with maxDepth := limit } e) :
    compileExpr e c { options with maxDepth := limit } = .ok f := by
  obtain ⟨hr, -, -⟩ := compileExpr_ok h
  have hbefore := ((compileExpr_ok_iff e c options).1 ⟨f, h⟩).1
  rw [compileExpr_of_admits hr hbefore] at h
  rw [compileExpr_of_admits hr ha]
  exact h

theorem exists_read_of_compile (h : compile filter c options = .ok f) :
    ∃ e, Expr.read options.language filter = .ok e ∧ compileExpr e c options = .ok f := by
  rw [compile] at h
  cases hread : Expr.read options.language filter with
  | error r => rw [hread] at h; cases h
  | ok e => rw [hread] at h; exact ⟨e, rfl, h⟩

/-- The depth of a filter bounds the nesting of its fragment, so a limit on the one is a limit on
the other. A filter that is accepted under a limit becomes the same fragment under every wider one
and under none. -/
theorem compile_nesting :
    (∀ (e : Expr) (c : Collection) (options : Options) (f : Fragment),
      compileExpr e c options = .ok f → f.nesting ≤ 2 * e.depth) ∧
    ∀ (filter : String) (c : Collection) (options : Options) (limit : Nat) (f : Fragment),
      options.maxDepth = some limit → compile filter c options = .ok f →
      f.nesting ≤ 2 * limit ∧
      (∀ wider, limit ≤ wider →
        compile filter c { options with maxDepth := some wider } = .ok f) ∧
      compile filter c { options with maxDepth := none } = .ok f := by
  refine ⟨fun e c options f h => nesting_le_of_compileExpr h, ?_⟩
  intro filter c options limit f hlimit h
  obtain ⟨e, hread, hcompile⟩ := exists_read_of_compile h
  have hdepth : e.depth ≤ limit := ((compileExpr_ok_iff e c options).1 ⟨f, hcompile⟩).1 limit hlimit
  have hnesting := nesting_le_of_compileExpr hcompile
  have hother {limits : Option Nat} (ha : Options.Admits { options with maxDepth := limits } e) :
      compile filter c { options with maxDepth := limits } = .ok f := by
    rw [compile, hread]
    exact compileExpr_withLimit hcompile ha
  refine ⟨by omega, ?_, ?_⟩
  · intro wider hle
    apply hother
    intro _ hwider
    cases hwider
    exact Nat.le_trans hdepth hle
  · apply hother
    intro _ hnone
    cases hnone

/-- A point, and a negation of a negation under the least limit that admits it, over a column whose
name has parentheses. -/
theorem compile_nesting_negations :
    (∃ f, compileExpr (.geometry .zero (.point ⟨.zero false, .zero false, none⟩))
        (.new "lakes" ["name"] "geom") {} = .ok f ∧ f.nesting ≤ 2) ∧
    let c := (Collection.new "lakes" ["name"] "geom").withProperty "name" "((("
    ∃ f, compile "NOT NOT name" c { maxDepth := some 3 } = .ok f ∧ f.nesting ≤ 6 ∧
      compile "NOT NOT name" c { maxDepth := some 20 } = .ok f ∧
      compile "NOT NOT name" c { maxDepth := none } = .ok f := by
  have hpoint : ∃ f, compileExpr (.geometry .zero (.point ⟨.zero false, .zero false, none⟩))
      (.new "lakes" ["name"] "geom") {} = .ok f := ⟨_, rfl⟩
  constructor
  · obtain ⟨f, hf⟩ := hpoint
    exact ⟨f, hf, compile_nesting.1 _ _ _ f hf⟩
  · intro c
    have hok : (compile "NOT NOT name" c { maxDepth := some 3 }).isOk = true := by decide +kernel
    cases hf : compile "NOT NOT name" c { maxDepth := some 3 } with
    | error r =>
      rw [hf] at hok
      cases hok
    | ok f =>
      obtain ⟨hnesting, hwider, hnone⟩ := compile_nesting.2 _ _ _ 3 f rfl hf
      exact ⟨f, rfl, hnesting, hwider 20 (by decide), hnone⟩

end FeatureFilter
