import FeatureFilter.Proofs.Grammar.Simulation
import FeatureFilter.Proofs.Grammar.Level

namespace FeatureFilter.Grammar

open ParseTree (unplacedEach)

variable {ρ : Type}

/-- The text closes `n` parentheses that are open before it, and leaves no quote open. -/
def Closes (n : Nat) (cs : List Char) : Prop := ∃ m ≤ 0, Level.after ⟨none, n⟩ cs = ⟨none, m⟩

/-- From one point to another, with `n` parentheses open at the first and `m` at the second. -/
def Reads (n m : Nat) (c d : Cursor) : Prop :=
  ∃ w, w ++ d.rest = c.rest ∧ Level.after ⟨none, n⟩ w = ⟨none, m⟩

theorem isPlain_of_isBlank (h : isBlank c = true) : isPlain c = true := by
  simp only [isBlank, Bool.or_eq_true, beq_iff_eq] at h
  obtain ((rfl | rfl) | rfl) | rfl := h <;> rfl

namespace Reads

theorem refl (n : Nat) (c : Cursor) : Reads n n c c := ⟨[], rfl, rfl⟩

theorem trans (h : Reads n m c d) (h' : Reads m l d e) : Reads n l c e := by
  obtain ⟨w, hw, hlevel⟩ := h
  obtain ⟨w', hw', hlevel'⟩ := h'
  exact ⟨w ++ w', by rw [List.append_assoc, hw', hw], by rw [Level.after_append, hlevel, hlevel']⟩

theorem skipBlanks (n : Nat) (c : Cursor) : Reads n n c c.skipBlanks := by
  refine ⟨c.rest.takeWhile isBlank, List.takeWhile_append_dropWhile, Level.after_of_plain ?_⟩
  rw [List.all_eq_true]
  intro b hb
  exact isPlain_of_isBlank (List.all_eq_true.1 List.all_takeWhile b hb)

theorem inside (h : Reads 0 0 c d) (n : Nat) : Reads n n c d := by
  obtain ⟨w, hw, hlevel⟩ := h
  have hdeep := Level.after_add hlevel n
  rw [Int.natCast_zero, Int.zero_add] at hdeep
  exact ⟨w, hw, hdeep⟩

end Reads

namespace Closes

theorem of_reads (h : Closes n c.rest) (hr : Reads n m c d) : Closes m d.rest := by
  obtain ⟨l, hl, hlevel⟩ := h
  obtain ⟨w, hw, hread⟩ := hr
  rw [← hw, Level.after_append, hread] at hlevel
  exact ⟨l, hl, hlevel⟩

theorem ne_nil (h : Closes (n + 1) cs) : cs ≠ [] := by
  rintro rfl
  obtain ⟨l, hl, hlevel⟩ := h
  cases hlevel
  omega

theorem quote (h : Closes n cs) : (Level.after ⟨none, n⟩ cs).quote = none := by
  obtain ⟨l, hl, hlevel⟩ := h
  rw [hlevel]

theorem outer (h : Closes n cs) : Closes 0 cs := by
  obtain ⟨l, hl, hlevel⟩ := h
  have hdeep := Level.after_add hlevel (-n)
  rw [Int.add_right_neg] at hdeep
  exact ⟨l + -n, by omega, hdeep⟩

end Closes

theorem Cursor.rest_skipBlanks_append {c c' : Cursor} (h : c'.rest = c.rest ++ ')' :: k) :
    c'.skipBlanks.rest = c.skipBlanks.rest ++ ')' :: k := by
  simp only [skipBlanks, moveTo, h]
  induction c.rest with
  | nil => rfl
  | cons b bs ih =>
    cases hb : isBlank b with
    | true => simpa only [List.cons_append, List.dropWhile_cons_of_pos hb] using ih
    | false => simp only [List.cons_append, List.dropWhile_cons, hb, Bool.false_eq_true, if_false]

def nestingOfMark (ws : List Char) (n : Nat) : Option Nat :=
  if ws = ['('] then some (n + 1)
  else if ws = [')'] then if n = 0 then none else some (n - 1)
  else if ws.all isPlain then some n
  else none

/-- How many parentheses are open behind a phrase that starts inside `n` of them, if this is one
number; `inner` tells which rules close what they open. -/
def Phrase.nesting (inner : ρ → Bool) : Phrase ρ → Nat → Option Nat
  | .nothing, n => some n
  | .endOfText, _ => none
  | .mark ws, n => nestingOfMark ws n
  | .rule r, n => if inner r then some n else none
  | .seq x y, n => (x.nesting inner n).bind (y.nesting inner)
  | .choice x y, n => if x.nesting inner n = y.nesting inner n then x.nesting inner n else none
  | .optional x, n | .many x, n => if x.nesting inner n = some n then some n else none

def Task.nesting (inner : ρ → Bool) : Task ρ → Nat → Option Nat
  | .phrase e => e.nesting inner
  | .again x => (Phrase.many x).nesting inner

/-- The rules in `inner` close what they open. -/
structure RuleSet.Bracketed (g : RuleSet ρ) (inner : ρ → Bool) : Prop where
  token : ∀ r p, inner r = true → g.define r = .token p → p.Framed none
  phrase : ∀ r e, inner r = true → g.define r = .phrase e → e.nesting inner 0 = some 0

theorem nestingOfMark_cases (h : nestingOfMark ws n = some m) :
    (ws = ['('] ∧ m = n + 1) ∨ (ws = [')'] ∧ n = m + 1) ∨ (ws.all isPlain = true ∧ m = n) := by
  unfold nestingOfMark at h
  split at h
  · cases h
    exact .inl ⟨‹_›, rfl⟩
  · split at h
    · split at h
      · cases h
      · cases h
        exact .inr (.inl ⟨‹_›, by omega⟩)
    · split at h
      · cases h
        exact .inr (.inr ⟨‹_›, rfl⟩)
      · cases h

theorem reads_of_mark (hn : nestingOfMark ws n = some m)
    (h : (Pattern.text ws).scan c.rest = some (taken, rest)) :
    Reads n m c (c.moveTo taken rest) := by
  refine ⟨taken, Pattern.append_of_scan h, ?_⟩
  rcases nestingOfMark_cases hn with ⟨rfl, rfl⟩ | ⟨rfl, rfl⟩ | ⟨hplain, rfl⟩
  · rw [(Pattern.eq_of_scan_text_one h).1]
    rfl
  · rw [(Pattern.eq_of_scan_text_one h).1]
    show (⟨none, ((m + 1 : Nat) : Int) - 1⟩ : Level) = ⟨none, m⟩
    rw [Int.natCast_add, Int.natCast_one, Int.add_sub_cancel]
  · exact (Pattern.framed_of_plain (p := .text ws) hplain).level h _

theorem scan_mark_append (hn : nestingOfMark ws n = some m) (hc : Closes n cs) (k : List Char) :
    (Pattern.text ws).scan (cs ++ ')' :: k) =
      ((Pattern.text ws).scan cs).map fun (taken, rest) => (taken, rest ++ ')' :: k) := by
  rcases nestingOfMark_cases hn with ⟨rfl, -⟩ | ⟨rfl, rfl⟩ | ⟨hplain, -⟩
  · exact Pattern.scan_text_one_append (.inr (by decide)) k
  · -- A parenthesis is open, so the text closes it before it ends.
    exact Pattern.scan_text_one_append (.inl hc.ne_nil) k
  · exact (Pattern.framed_of_plain (p := .text ws) hplain).extend hc.quote k

variable {g : RuleSet ρ} {inner : ρ → Bool}

theorem nesting_rule (h : (Phrase.rule r).nesting inner n = some m) : inner r = true ∧ n = m := by
  rw [Phrase.nesting] at h
  split at h
  · rename_i hr
    exact ⟨hr, Option.some.inj h⟩
  · cases h

theorem nesting_choice (h : (Phrase.choice x y).nesting inner n = some m) :
    x.nesting inner n = some m ∧ y.nesting inner n = some m := by
  rw [Phrase.nesting] at h
  split at h
  · rename_i he
    exact ⟨h, he ▸ h⟩
  · cases h

theorem nesting_repeated (h : (Phrase.many x).nesting inner n = some m) :
    x.nesting inner n = some n ∧ n = m := by
  rw [Phrase.nesting] at h
  split at h
  · rename_i hx
    exact ⟨hx, Option.some.inj h⟩
  · cases h

theorem Derives.reads (hg : g.Bracketed inner) (h : Derives g t c o)
    (ht : t.nesting inner n = some m) : ∀ d ts, o = some (d, ts) → Reads n m c d := by
  induction h generalizing n m with
  | nothing =>
    rintro d ts ⟨⟩
    cases ht
    exact .refl _ _
  | endOfText | notEnd => cases ht
  | mark hs =>
    rintro d ts ⟨⟩
    exact reads_of_mark ht hs
  | token hd hs =>
    rintro d ts ⟨⟩
    obtain ⟨hr, rfl⟩ := nesting_rule ht
    exact ⟨_, Pattern.append_of_scan hs, (hg.token _ _ hr hd).level hs n⟩
  | node hd _ ih =>
    rintro d ts ⟨⟩
    obtain ⟨hr, rfl⟩ := nesting_rule ht
    exact (ih (hg.phrase _ _ hr hd) _ _ rfl).inside n
  | seq _ _ ihx ihy =>
    rintro d ts ⟨⟩
    obtain ⟨l, hx, hy⟩ := Option.bind_eq_some_iff.1 ht
    exact (ihx hx _ _ rfl).trans ((Reads.skipBlanks l _).trans (ihy hy _ _ rfl))
  | choiceLeft _ ih =>
    exact ih (nesting_choice ht).1
  | choiceRight _ _ _ ih =>
    exact ih (nesting_choice ht).2
  | optional _ ih =>
    obtain ⟨hx, rfl⟩ := nesting_repeated ht
    exact ih hx
  | absent | never | done =>
    rintro d ts ⟨⟩
    obtain ⟨-, rfl⟩ := nesting_repeated ht
    exact .refl _ _
  | many _ _ ihx ihm =>
    rintro d ts ⟨⟩
    obtain ⟨hx, rfl⟩ := nesting_repeated ht
    exact (ihx hx _ _ rfl).trans (ihm ht _ _ rfl)
  | again _ _ ihx ihm =>
    rintro d ts ⟨⟩
    obtain ⟨hx, rfl⟩ := nesting_repeated ht
    exact (Reads.skipBlanks n _).trans ((ihx hx _ _ rfl).trans (ihm ht _ _ rfl))
  | noMark | noToken | noNode | seqLeft | seqRight => nofun

/-- The same outcome with a closing parenthesis and more behind what is left. -/
def Result.Extended (k : List Char) : Result ρ → Result ρ → Prop
  | none, o => o = none
  | some (d, ts), o => ∃ d' ts', o = some (d', ts') ∧ d'.rest = d.rest ++ ')' :: k ∧
    unplacedEach ts' = unplacedEach ts

/-- Tasks whose brackets the text at a point closes. Inside a phrase `n` counts the parentheses
that this phrase has opened. -/
def Task.Bracketed (inner : ρ → Bool) (t : Task ρ) (c : Cursor) : Prop :=
  ∃ n m, t.nesting inner n = some m ∧ Closes n c.rest

theorem closed_bracketed (hg : g.Bracketed inner) : g.Closed (Task.Bracketed inner) where
  noEnd := by
    rintro c ⟨n, m, ht, -⟩
    cases ht
  node := by
    -- A rule starts again from no parentheses, so what it needs of the text is less than is known.
    rintro r e c ⟨n, m, ht, hc⟩ hd
    exact ⟨0, 0, hg.phrase _ _ (nesting_rule ht).1 hd, hc.outer⟩
  seq := by
    rintro x y c ⟨n, m, ht, hc⟩
    obtain ⟨l, hx, hy⟩ := Option.bind_eq_some_iff.1 ht
    refine ⟨⟨n, l, hx, hc⟩, ?_⟩
    intro d ts h
    exact ⟨l, m, hy, hc.of_reads ((h.reads hg hx _ _ rfl).trans (.skipBlanks l _))⟩
  choice := by
    rintro x y c ⟨n, m, ht, hc⟩
    obtain ⟨hx, hy⟩ := nesting_choice ht
    exact ⟨⟨n, m, hx, hc⟩, n, m, hy, hc⟩
  optional := by
    rintro x c ⟨n, m, ht, hc⟩
    exact ⟨n, n, (nesting_repeated ht).1, hc⟩
  many := by
    rintro x c ⟨n, m, ht, hc⟩
    obtain ⟨hx, rfl⟩ := nesting_repeated ht
    refine ⟨⟨n, n, hx, hc⟩, ?_⟩
    intro d ts h
    exact ⟨n, n, ht, hc.of_reads (h.reads hg hx _ _ rfl)⟩
  again := by
    rintro x c ⟨n, m, ht, hc⟩
    obtain ⟨hx, rfl⟩ := nesting_repeated ht
    have hb := hc.of_reads (.skipBlanks n c)
    refine ⟨⟨n, n, hx, hb⟩, ?_⟩
    intro d ts h
    exact ⟨n, n, ht, hb.of_reads (h.reads hg hx _ _ rfl)⟩

theorem simulates_bracketed (hg : g.Bracketed inner) (k : List Char) :
    g.Simulates (Task.Bracketed inner) (· ++ ')' :: k) where
  toClosed := closed_bracketed hg
  blanks cs := by
    have h : (Cursor.ofText (cs ++ ')' :: k)).skipBlanks.rest =
      (Cursor.ofText cs).skipBlanks.rest ++ ')' :: k := Cursor.rest_skipBlanks_append rfl
    exact h.symm
  mark := by
    rintro ws c ⟨n, m, ht, hc⟩
    exact scan_mark_append ht hc k
  token := by
    rintro r p c ⟨n, m, ht, hc⟩ hd
    exact (hg.token _ _ (nesting_rule ht).1 hd).extend hc.quote k

/-- A closing parenthesis behind a text, and whatever follows it, changes no trial in the text. -/
theorem Derives.extend (hg : g.Bracketed inner) (h : Derives g t c o)
    (ht : t.nesting inner n = some m) (hc : Closes n c.rest) (hc' : c'.rest = c.rest ++ ')' :: k) :
    ∃ o', Derives g t c' o' ∧ Result.Extended k o o' := by
  obtain ⟨o', h', hcarried⟩ := h.simulate (simulates_bracketed hg k) ⟨n, m, ht, hc⟩ hc'
  refine ⟨o', h', ?_⟩
  cases o with
  | none => exact hcarried
  | some m => exact hcarried

end FeatureFilter.Grammar
