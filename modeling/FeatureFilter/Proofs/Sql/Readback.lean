import FeatureFilter.Proofs.Sql.Rendering
import FeatureFilter.Proofs.Sql.Spacing

namespace FeatureFilter

namespace Sql

theorem text_cons_ne_nil (k : Nat) (m : Mark) (ms : List Mark) : text k (m :: ms) ≠ [] := by
  cases m with
  | token t =>
    obtain ⟨ch, cs, he, _⟩ := text_token k t ms
    rw [he]
    exact List.cons_ne_nil _ _
  | column name =>
    obtain ⟨cs, he⟩ := text_column k name ms
    rw [he]
    exact List.cons_ne_nil _ _
  | hole =>
    rw [text_hole]
    exact List.cons_ne_nil _ _

theorem Token.eq_of_text_append {t u : Token}
    (h : t.text.toList ++ cs = u.text.toList ++ ds) : t = u ∧ cs = ds := by
  have ht : t.text.toList <+: u.text.toList ++ ds := ⟨cs, h⟩
  have htu : t = u := by
    rcases List.prefix_or_prefix_of_prefix ht (List.prefix_append _ ds) with hp | hp
    · exact text_prefix_inj t u hp
    · exact (text_prefix_inj u t hp).symm
  subst htu
  exact ⟨rfl, List.append_cancel_left h⟩

theorem Spaced.head?_text (h : Spaced (.column name :: ms)) (k : Nat) :
    (text k ms).head? ≠ some '"' ∧ (text k ms).head? ≠ some '.' :=
  head?_text_of_not_column k fun name' hm =>
    (List.isChain_cons.1 h).1 (.column name') hm (.columns name name')

theorem eq_of_text_cons (hm : Spaced (m :: ms)) (hn : Spaced (n :: ns))
    (h : text k (m :: ms) = text k (n :: ns)) : m = n ∧ ∃ k, text k ms = text k ns := by
  match m, n with
  | .token t, .token u =>
    obtain ⟨rfl, ht⟩ := Token.eq_of_text_append h
    exact ⟨rfl, k, ht⟩
  | .column a, .column b =>
    obtain ⟨rfl, ht⟩ := eq_of_quoteColumn_append (hm.head?_text k) (hn.head?_text k) h
    exact ⟨rfl, k, ht⟩
  | .hole, .hole => exact ⟨rfl, k + 1, List.append_cancel_left h⟩
  -- Marks of two kinds have different first characters.
  | .token t, .column b =>
    obtain ⟨ch, cs, he, hq, _⟩ := text_token k t ms
    obtain ⟨ds, hd⟩ := text_column k b ns
    rw [he, hd] at h
    exact absurd (List.cons.inj h).1 hq
  | .column a, .token u =>
    obtain ⟨cs, hc⟩ := text_column k a ms
    obtain ⟨ch, ds, he, hq, _⟩ := text_token k u ns
    rw [hc, he] at h
    exact absurd (List.cons.inj h).1.symm hq
  | .token t, .hole =>
    obtain ⟨ch, cs, he, _, _, hd, _⟩ := text_token k t ms
    rw [he, text_hole] at h
    exact absurd (List.cons.inj h).1 hd
  | .hole, .token u =>
    obtain ⟨ch, ds, he, _, _, hd, _⟩ := text_token k u ns
    rw [text_hole, he] at h
    exact absurd (List.cons.inj h).1.symm hd
  | .column a, .hole =>
    obtain ⟨cs, hc⟩ := text_column k a ms
    rw [hc, text_hole] at h
    cases h
  | .hole, .column b =>
    obtain ⟨ds, hd⟩ := text_column k b ns
    rw [text_hole, hd] at h
    cases h

/-- Spaced marks are known by their text. -/
theorem eq_of_text_eq (hm : Spaced ms) (hn : Spaced ns) (h : text k ms = text k ns) :
    ms = ns := by
  induction ms generalizing k ns with
  | nil =>
    cases ns with
    | nil => rfl
    | cons n ns => exact absurd h.symm (text_cons_ne_nil k n ns)
  | cons m ms ih =>
    cases ns with
    | nil => exact absurd h (text_cons_ne_nil k m ms)
    | cons n ns =>
      obtain ⟨rfl, k', ht⟩ := eq_of_text_cons hm hn h
      rw [ih (List.isChain_cons.1 hm).2 (List.isChain_cons.1 hn).2 ht]

def expect (t : Token) : List Mark → Option (List Mark)
  | .token u :: ms => if u = t then some ms else none
  | _ => none

@[simp] theorem expect_self (t : Token) (ms : List Mark) : expect t (.token t :: ms) = some ms := by
  simp [expect]

section Reading

variable (read : List Mark → Option (Outline × List Mark))

def readBehind : Nat → List Mark → Option (List Outline × List Mark)
  | n + 1, .token .comma :: ms => do
    let (o, ms) ← read ms
    let (os, ms) ← readBehind n ms
    return (o :: os, ms)
  | _, ms => some ([], ms)

def readRight (op : Connective) (left : Outline) (ms : List Mark) :
    Option (Outline × List Mark) := do
  let (right, ms) ← read ms
  let ms ← expect .rparen ms
  return (.binary op left right, ms)

/-- Reads what follows the first operand behind an open parenthesis. -/
def readAfter (n : Nat) (first : Outline) : List Mark → Option (Outline × List Mark)
  | .token .and :: ms => readRight read .and first ms
  | .token .or :: ms => readRight read .or first ms
  | .token (.comparison op) :: ms => readRight read (.comparison op) first ms
  | .token (.like negated) :: ms => readRight read (.like negated) first ms
  | .token (.between negated) :: ms => do
    let (low, ms) ← read ms
    let ms ← expect .and ms
    let (high, ms) ← read ms
    let ms ← expect .rparen ms
    return (.between negated first low high, ms)
  | .token (.isIn negated) :: ms => do
    let ms ← expect .lparen ms
    let (item, ms) ← read ms
    let (items, ms) ← readBehind read n ms
    let ms ← expect .rparen ms
    let ms ← expect .rparen ms
    return (.isIn negated first item items, ms)
  | .token (.isNull negated) :: ms => do
    let ms ← expect .rparen ms
    return (.isNull negated first, ms)
  | ms => do
    let (items, ms) ← readBehind read n ms
    let ms ← expect .rparen ms
    return (.list first items, ms)

def readInside (n : Nat) : List Mark → Option (Outline × List Mark)
  | .token .not :: ms => do
    let ms ← expect .lparen ms
    let (operand, ms) ← read ms
    let ms ← expect .rparen ms
    let ms ← expect .rparen ms
    return (.not operand, ms)
  | .token .minus :: ms => do
    let (operand, ms) ← read ms
    let ms ← expect .rparen ms
    return (.minus operand, ms)
  | ms => do
    let (first, ms) ← read ms
    readAfter read n first ms

end Reading

/-- Reads a normal form; the first number bounds how deep it is. -/
def readOutline : Nat → List Mark → Option (Outline × List Mark)
  | 0, _ => none
  | _ + 1, [] => none
  | _ + 1, .hole :: ms => some (.hole, ms)
  | _ + 1, .column name :: ms => some (.column name, ms)
  | n + 1, .token t :: ms =>
    match t with
    | .null => some (.null, ms)
    | .bool b => some (.bool b, ms)
    | .lparen => readInside (readOutline n) n ms
    | .geometryFromText => do
      let ms ← expect .lparen ms
      let .hole :: ms := ms | none
      let ms ← expect .comma ms
      let ms ← expect .srid ms
      let ms ← expect .rparen ms
      return (.geometry, ms)
    | .spatial op => do
      let ms ← expect .lparen ms
      let (subject, ms) ← readOutline n ms
      let ms ← expect .comma ms
      let (other, ms) ← readOutline n ms
      let ms ← expect .rparen ms
      return (.spatial op subject other, ms)
    | .distanceWithin => do
      let ms ← expect .lparen ms
      let (first, ms) ← readOutline n ms
      let ms ← expect .geography ms
      let ms ← expect .comma ms
      let (second, ms) ← readOutline n ms
      let ms ← expect .geography ms
      let ms ← expect .comma ms
      let (distance, ms) ← readOutline n ms
      let ms ← expect .rparen ms
      return (.distanceWithin first second distance, ms)
    | .envelope => do
      let ms ← expect .lparen ms
      let (west, ms) ← readOutline n ms
      let ms ← expect .comma ms
      let (south, ms) ← readOutline n ms
      let ms ← expect .comma ms
      let (east, ms) ← readOutline n ms
      let ms ← expect .comma ms
      let (north, ms) ← readOutline n ms
      let ms ← expect .comma ms
      let ms ← expect .srid ms
      let ms ← expect .rparen ms
      return (.box west south east north, ms)
    | _ => none

namespace Outline

theorem marks_ne_nil {o : Outline} (h : o.rejections = []) : o.marks ≠ [] := by
  cases o with
  | reject r => cases h
  | _ => exact List.cons_ne_nil _ _

end Outline

/-- A reader finds the normal form at the start of any marks that begin with it. -/
def Reads (read : List Mark → Option (Outline × List Mark)) (o : Outline) : Prop :=
  ∀ rest, read (o.marks ++ rest) = some (o, rest)

section Reading

variable {read : List Mark → Option (Outline × List Mark)}

theorem readBehind_marksBehind
    (h : ∀ o : Outline, o.rejections = [] → o.marks.length < n → Reads read o)
    (ho : Outline.rejectionsEach os = []) (hn : (Outline.marksBehind os).length ≤ n)
    (hm : (Outline.marksBehind os).length ≤ m) (rest : List Mark) :
    readBehind read m (Outline.marksBehind os ++ .token .rparen :: rest) =
      some (os, .token .rparen :: rest) := by
  induction os generalizing m with
  | nil => cases m <;> rfl
  | cons o os ih =>
    obtain ⟨hfirst, hrest⟩ := List.append_eq_nil_iff.1 ho
    simp only [Outline.marksBehind, List.length_cons, List.length_append] at hn hm
    cases m with
    | zero => cases hm
    | succ m =>
      have hread := h o hfirst (by omega)
      have ih := ih hrest (by omega) (m := m) (by omega)
      simp [Outline.marksBehind, readBehind, hread _, ih]

theorem readAfter_list (first : Outline)
    (h : readBehind read n (Outline.marksBehind os ++ .token .rparen :: rest) =
      some (os, .token .rparen :: rest)) :
    readAfter read n first (Outline.marksBehind os ++ .token .rparen :: rest) =
      some (.list first os, rest) := by
  cases os with
  | nil =>
    rw [Outline.marksBehind, List.nil_append] at h ⊢
    simp [readAfter, h]
  | cons o os =>
    rw [Outline.marksBehind, List.cons_append, List.append_assoc] at h ⊢
    simp [readAfter, h]

theorem readInside_marks (n : Nat) (ho : o.rejections = []) (h : Reads read o) (rest : List Mark) :
    readInside read n (o.marks ++ rest) = readAfter read n o rest := by
  have hread := h rest
  obtain ⟨m, ms, hm⟩ := List.exists_cons_of_ne_nil (Outline.marks_ne_nil ho)
  obtain ⟨hminus, hnot, _⟩ := o.head?_marks m (by rw [hm]; rfl)
  rw [hm, List.cons_append] at hread ⊢
  unfold readInside
  split
  · rename_i he
    exact absurd (List.cons.inj he).1 hnot
  · rename_i he
    exact absurd (List.cons.inj he).1 hminus
  · rw [hread]
    rfl

end Reading

/-- A normal form without rejections is read back from its marks. -/
theorem reads_outline {o : Outline} (ho : o.rejections = []) (h : o.marks.length < n) :
    Reads (readOutline n) o := by
  -- on the bound, since the operands of a normal form are read with the next smaller one
  induction n generalizing o with
  | zero => exact absurd h (Nat.not_lt_zero _)
  | succ n ih =>
    intro rest
    cases o with
    | reject r => cases ho
    | null => rfl
    | bool b => rfl
    | hole => rfl
    | column name => rfl
    | geometry => simp [Outline.marks, parenthesized, readOutline]
    | binary op left right =>
      obtain ⟨hl, hr⟩ := List.append_eq_nil_iff.1 ho
      simp only [Outline.marks, parenthesized, List.length_cons, List.length_append] at h
      have hleft := ih hl (by omega)
      have hright := ih hr (by omega)
      simp only [Outline.marks, parenthesized, List.cons_append, List.append_assoc, readOutline,
        readInside_marks n hl hleft]
      cases op <;> simp [Connective.token, readAfter, readRight, hright _]
    | between negated subject low high =>
      obtain ⟨hsl, hh⟩ := List.append_eq_nil_iff.1 ho
      obtain ⟨hs, hl⟩ := List.append_eq_nil_iff.1 hsl
      simp only [Outline.marks, parenthesized, List.length_cons, List.length_append] at h
      have hsubject := ih hs (by omega)
      have hlow := ih hl (by omega)
      have hhigh := ih hh (by omega)
      simp only [Outline.marks, parenthesized, List.cons_append, List.append_assoc, readOutline,
        readInside_marks n hs hsubject]
      simp [readAfter, hlow _, hhigh _]
    | isIn negated subject first items =>
      obtain ⟨hs, hfi⟩ := List.append_eq_nil_iff.1 ho
      obtain ⟨hf, hi⟩ := List.append_eq_nil_iff.1 hfi
      simp only [Outline.marks, parenthesized, List.length_cons, List.length_append] at h
      have hsubject := ih hs (by omega)
      have hfirst := ih hf (by omega)
      have hitems := readBehind_marksBehind (fun o => ih) hi (by omega) (m := n) (by omega)
      simp only [Outline.marks, parenthesized, List.cons_append, List.append_assoc, readOutline,
        readInside_marks n hs hsubject]
      simp [readAfter, hfirst _, hitems]
    | isNull negated operand =>
      have ho : operand.rejections = [] := ho
      simp only [Outline.marks, parenthesized, List.length_cons, List.length_append] at h
      have hoperand := ih ho (by omega)
      simp only [Outline.marks, parenthesized, List.cons_append, List.append_assoc, readOutline,
        readInside_marks n ho hoperand]
      simp [readAfter]
    | not operand =>
      have ho : operand.rejections = [] := ho
      simp only [Outline.marks, parenthesized, List.length_cons, List.length_append] at h
      have hoperand := ih ho (by omega)
      simp [Outline.marks, parenthesized, readOutline, readInside, hoperand _]
    | minus operand =>
      have ho : operand.rejections = [] := ho
      simp only [Outline.marks, parenthesized, List.length_cons, List.length_append] at h
      have hoperand := ih ho (by omega)
      simp [Outline.marks, parenthesized, readOutline, readInside, hoperand _]
    | list first items =>
      obtain ⟨hf, hi⟩ := List.append_eq_nil_iff.1 ho
      simp only [Outline.marks, parenthesized, List.length_cons, List.length_append] at h
      have hfirst := ih hf (by omega)
      have hitems := readBehind_marksBehind (fun o => ih) hi (by omega) (m := n) (by omega)
      simp only [Outline.marks, parenthesized, List.cons_append, List.append_assoc, readOutline,
        readInside_marks n hf hfirst]
      exact readAfter_list first (hitems rest)
    | spatial op subject other =>
      obtain ⟨hs, hot⟩ := List.append_eq_nil_iff.1 ho
      simp only [Outline.marks, parenthesized, List.length_cons, List.length_append] at h
      have hsubject := ih hs (by omega)
      have hother := ih hot (by omega)
      simp [Outline.marks, parenthesized, readOutline, hsubject _, hother _]
    | distanceWithin first second distance =>
      obtain ⟨hf, hsd⟩ := List.append_eq_nil_iff.1 ho
      obtain ⟨hs, hd⟩ := List.append_eq_nil_iff.1 hsd
      simp only [Outline.marks, parenthesized, List.length_cons, List.length_append] at h
      have hfirst := ih hf (by omega)
      have hsecond := ih hs (by omega)
      have hdistance := ih hd (by omega)
      simp [Outline.marks, parenthesized, readOutline, hfirst _, hsecond _, hdistance _]
    | box west south east north =>
      obtain ⟨hw, hsen⟩ := List.append_eq_nil_iff.1 ho
      obtain ⟨hs, hen⟩ := List.append_eq_nil_iff.1 hsen
      obtain ⟨he, hn⟩ := List.append_eq_nil_iff.1 hen
      simp only [Outline.marks, parenthesized, List.length_cons, List.length_append] at h
      have hwest := ih hw (by omega)
      have hsouth := ih hs (by omega)
      have heast := ih he (by omega)
      have hnorth := ih hn (by omega)
      simp [Outline.marks, parenthesized, readOutline, hwest _, hsouth _, heast _, hnorth _]

theorem Outline.eq_of_marks_eq {o o' : Outline} (ho : o.rejections = []) (ho' : o'.rejections = [])
    (h : o.marks = o'.marks) : o = o' := by
  have hread := reads_outline ho (Nat.lt_succ_self _) []
  have hread' := reads_outline ho' (h ▸ Nat.lt_succ_self o.marks.length) []
  rw [h, hread'] at hread
  exact (Prod.mk.inj (Option.some.inj hread)).1.symm

theorem render_complete (h : ((Draft.empty c k).render e).1 = none) :
    (e.outline c).rejections = [] ∧
      ((Draft.empty c k).render e).2.sql = .ofList (text k (e.outline c).marks) := by
  rw [Draft.empty_render, List.head?_eq_none_iff] at h
  exact ⟨h, Draft.sql_render h k⟩

/-- Two filters over a collection have one text exactly when they have one normal form. -/
theorem render_sql_eq_iff (c : Collection) (k : Nat) (e e' : Expr)
    (h : ((Draft.empty c k).render e).1 = none) (h' : ((Draft.empty c k).render e').1 = none) :
    ((Draft.empty c k).render e).2.sql = ((Draft.empty c k).render e').2.sql ↔
      e.outline c = e'.outline c := by
  obtain ⟨ho, hsql⟩ := render_complete h
  obtain ⟨ho', hsql'⟩ := render_complete h'
  rw [hsql, hsql']
  constructor
  · intro heq
    have htext := String.ofList_injective heq
    have hmarks := eq_of_text_eq (Outline.spaced_marks _) (Outline.spaced_marks _) htext
    exact Outline.eq_of_marks_eq ho ho' hmarks
  · intro heq
    rw [heq]

/-- A conjunction behind a range is told apart from one inside it, and a group is a list of one. -/
theorem render_sql_eq_iff_between :
    ((Draft.empty ((Collection.new "lakes" ["name"] "geom").withProperty "name" "a.b") 4).render
      (.binary .zero .and
        (.advanced .zero .between false
          [.property .zero "name", .literal .zero .null, .literal .zero (.integer 2)])
        (.group .zero (.property .zero "name")))).2.sql ≠
    ((Draft.empty ((Collection.new "lakes" ["name"] "geom").withProperty "name" "a.b") 4).render
      (.advanced .zero .between false
        [.property .zero "name", .literal .zero .null,
          .binary .zero .and (.literal .zero (.integer 2))
            (.group .zero (.property .zero "name"))])).2.sql ∧
    ((Draft.empty ((Collection.new "lakes" ["name"] "geom").withProperty "name" "a.b") 4).render
      (.group .zero (.property .zero "name"))).2.sql =
    ((Draft.empty ((Collection.new "lakes" ["name"] "geom").withProperty "name" "a.b") 4).render
      (.array ⟨7, 9, 1, 8⟩ [.property .zero "name"])).2.sql := by
  constructor
  · intro hsql
    have heq := (render_sql_eq_iff _ 4 _ _ rfl rfl).1 hsql
    cases heq
  · exact (render_sql_eq_iff _ 4 _ _ rfl rfl).2 rfl

end Sql
end FeatureFilter
