import Mathlib.Data.List.Chain
import FeatureFilter.Proofs.Sql.Outline
import FeatureFilter.Proofs.Sql.QuotedNames

namespace FeatureFilter.Sql

namespace Token

def all : List Token :=
  [lparen, rparen, comma, .and, .or, .not, minus, null, distanceWithin, geometryFromText,
    envelope, geography, srid] ++ ComparisonOp.all.map comparison ++
    SpatialOp.all.map spatial ++
    [true, false].flatMap fun b => [like b, between b, isIn b, isNull b, bool b]

theorem mem_all (t : Token) : t ∈ all := by
  cases t with
  | comparison op => cases op <;> simp [all, ComparisonOp.all]
  | spatial op => cases op <;> simp [all, SpatialOp.all]
  | _ => simp [all]

theorem forall_of_all {P : Token → Prop} (h : ∀ t ∈ all, P t) (t : Token) : P t := h t (mem_all t)

/-- No token is the beginning of another. -/
theorem text_prefix_inj : ∀ t u : Token, t.text.toList <+: u.text.toList → t = u :=
  forall_of_all fun t ht => forall_of_all fun u hu => by
    revert t u
    decide +kernel

/-- A token has a first character. It is neither a quote nor a point nor a dollar sign, and it is a
digit only in the number of a reference system. -/
theorem exists_text_eq_cons : ∀ t : Token, ∃ ch cs, t.text.toList = ch :: cs ∧ ch ≠ '"' ∧
    ch ≠ '.' ∧ ch ≠ '$' ∧ (ch.isDigit → t = .srid) := by
  have h : all.all fun t => t.text.toList.head?.all fun ch =>
      ch ≠ '"' ∧ ch ≠ '.' ∧ ch ≠ '$' ∧ (ch.isDigit → t = .srid) := by decide +kernel
  have hne : ∀ t ∈ all, t.text.toList ≠ [] := by decide
  intro t
  obtain ⟨ch, cs, he⟩ := List.exists_cons_of_ne_nil (hne t (mem_all t))
  have hch := List.all_eq_true.1 h t (mem_all t)
  rw [he] at hch
  exact ⟨ch, cs, he, of_decide_eq_true hch⟩

theorem mem_text (t : Token) : ∀ ch ∈ t.text.toList,
    ch ≠ '"' ∧ ch ≠ '$' ∧ ch ≠ '\'' ∧ ch ≠ ';' ∧ ch ≠ '/' ∧ (ch = '-' → t = .minus) := by
  have h : all.all fun t => t.text.toList.all fun ch =>
      ch ≠ '"' ∧ ch ≠ '$' ∧ ch ≠ '\'' ∧ ch ≠ ';' ∧ ch ≠ '/' ∧ (ch = '-' → t = .minus) := by
    decide +kernel
  intro ch hch
  exact of_decide_eq_true (List.all_eq_true.1 (List.all_eq_true.1 h t (mem_all t)) ch hch)

end Token

theorem text_token (k : Nat) (t : Token) (ms : List Mark) : ∃ ch cs,
    text k (.token t :: ms) = ch :: cs ∧ ch ≠ '"' ∧ ch ≠ '.' ∧ ch ≠ '$' ∧
      (ch.isDigit → t = .srid) := by
  obtain ⟨ch, cs, he, hch⟩ := t.exists_text_eq_cons
  exact ⟨ch, cs ++ text k ms, by rw [text, he, List.cons_append], hch⟩

theorem text_column (k : Nat) (name : String) (ms : List Mark) :
    ∃ cs, text k (.column name :: ms) = '"' :: cs := by
  obtain ⟨cs, he⟩ := exists_chainText_eq_cons (splitAt_ne_nil '.' name.toList)
  exact ⟨cs ++ text k ms, by rw [text, quoteColumn_toList, he, List.cons_append]⟩

theorem text_hole (k : Nat) (ms : List Mark) :
    text k (.hole :: ms) = '$' :: (Nat.toDigits 10 (k + 1) ++ text (k + 1) ms) := by
  rw [text, placeholder_toList, List.cons_append]

theorem head?_text_of_not_column (k : Nat) (h : ∀ name, ms.head? ≠ some (.column name)) :
    (text k ms).head? ≠ some '"' ∧ (text k ms).head? ≠ some '.' := by
  match ms with
  | [] => exact ⟨nofun, nofun⟩
  | .token t :: ms =>
    obtain ⟨ch, cs, he, hq, hp, _⟩ := text_token k t ms
    rw [he]
    exact ⟨fun h => hq (Option.some.inj h), fun h => hp (Option.some.inj h)⟩
  | .column name :: ms => exact absurd rfl (h name)
  | .hole :: ms =>
    rw [text_hole]
    exact ⟨nofun, nofun⟩

theorem head?_text_of_ne_srid (k : Nat) (h : ms.head? ≠ some (.token .srid)) :
    ∀ ch ∈ (text k ms).head?, ch.isDigit = false := by
  intro ch hch
  match ms with
  | [] => cases hch
  | .token t :: ms =>
    obtain ⟨ch', cs, he, _, _, _, hd⟩ := text_token k t ms
    rw [he] at hch
    cases hch
    exact Bool.eq_false_iff.2 fun hdigit => h (by rw [hd hdigit]; rfl)
  | .column name :: ms =>
    obtain ⟨cs, he⟩ := text_column k name ms
    rw [he] at hch
    cases hch
    rfl
  | .hole :: ms =>
    rw [text_hole] at hch
    cases hch
    rfl

/-- Marks whose texts would grow into one: quoted names, the start of a comment, a number. -/
inductive Mark.Clash : Mark → Mark → Prop
  | columns (a b : String) : Clash (.column a) (.column b)
  | minuses : Clash (.token .minus) (.token .minus)
  | digits : Clash .hole (.token .srid)

/-- No mark clashes with the next one. -/
def Spaced (ms : List Mark) : Prop := ms.IsChain fun a b => ¬a.Clash b

theorem Spaced.nil : Spaced [] := List.isChain_nil

theorem Spaced.singleton (m : Mark) : Spaced [m] := List.isChain_singleton m

theorem Spaced.join (hm : Spaced ms) (t : Token) (hn : Spaced ns)
    (ht : t ≠ .minus ∧ t ≠ .srid := by simp) :
    Spaced (ms ++ .token t :: ns) := by
  refine List.IsChain.append hm (List.IsChain.cons hn ?_) ?_
  · intro m _ hc
    cases hc
    exact ht.1 rfl
  · intro m _ m' hm' hc
    cases hm'
    cases hc with
    | minuses => exact ht.1 rfl
    | digits => exact ht.2 rfl

theorem Spaced.cons (t : Token) (h : Spaced ms)
    (ht : t ≠ .minus ∧ t ≠ .srid := by simp) : Spaced (.token t :: ms) :=
  Spaced.nil.join t h ht

theorem Spaced.parenthesized (h : Spaced ms) : Spaced (parenthesized ms) :=
  (h.join .rparen .nil).cons .lparen

theorem Connective.token_ne (op : Connective) : op.token ≠ .minus ∧ op.token ≠ .srid := by
  cases op <;> simp [Connective.token]

namespace Outline

/-- A normal form starts neither with a minus sign nor with a negation nor with a number. -/
theorem head?_marks (o : Outline) :
    ∀ m ∈ o.marks.head?, m ≠ .token .minus ∧ m ≠ .token .not ∧ m ≠ .token .srid := by
  intro m hm
  cases o <;> simp only [marks, Sql.parenthesized, List.cons_append, List.head?_cons,
    List.head?_nil, Option.mem_def, Option.some.injEq, reduceCtorEq] at hm <;>
    subst hm <;> simp

theorem spaced_marksBehind (h : ∀ o ∈ os, Spaced o.marks) : Spaced ms →
    Spaced (ms ++ marksBehind os) := by
  induction os generalizing ms with
  | nil =>
    intro hm
    rwa [marksBehind, List.append_nil]
  | cons o os ih =>
    intro hm
    obtain ⟨ho, hos⟩ := List.forall_mem_cons.1 h
    have hj := ih hos (hm.join .comma ho)
    rwa [List.append_assoc] at hj

theorem spaced_marks (o : Outline) : Spaced o.marks := by
  induction o with
  | reject r => exact .nil
  | null => exact .singleton _
  | bool b => exact .singleton _
  | hole => exact .singleton _
  | column name => exact .singleton _
  | geometry =>
    have h := (Spaced.singleton .hole).join .comma (.singleton (.token .srid))
    exact h.parenthesized.cons .geometryFromText
  | binary op left right hl hr => exact (hl.join op.token hr op.token_ne).parenthesized
  | between negated subject low high hs hl hh =>
    exact ((hs.join (.between negated) hl).join .and hh).parenthesized
  | isIn negated subject first rest hs hf hr =>
    have hlist := (spaced_marksBehind hr hf).parenthesized
    exact (hs.join (.isIn negated) hlist).parenthesized
  | isNull negated operand ih => exact (ih.join (.isNull negated) .nil).parenthesized
  | not operand ih => exact (ih.parenthesized.cons .not).parenthesized
  | minus operand ih =>
    have h : Spaced (.token .minus :: operand.marks) := by
      refine List.IsChain.cons ih fun m hm hc => ?_
      cases hc
      exact (operand.head?_marks _ hm).1 rfl
    exact h.parenthesized
  | list first rest hf hr => exact (spaced_marksBehind hr hf).parenthesized
  | spatial op subject other hs ho =>
    exact (hs.join .comma ho).parenthesized.cons (.spatial op)
  | distanceWithin first second distance hf hs hd =>
    have h := (hs.join .geography .nil).join .comma hd
    exact ((hf.join .geography .nil).join .comma h).parenthesized.cons .distanceWithin
  | box west south east north hw hs he hn =>
    have h := he.join .comma (hn.join .comma (.singleton (.token .srid)))
    exact (hw.join .comma (hs.join .comma h)).parenthesized.cons .envelope

theorem spaced_of_eq {o : Outline} (h : ms = o.marks ∨ ms = Sql.parenthesized o.marks) :
    Spaced ms := by
  rcases h with rfl | rfl
  · exact o.spaced_marks
  · exact o.spaced_marks.parenthesized

end Outline
end FeatureFilter.Sql
