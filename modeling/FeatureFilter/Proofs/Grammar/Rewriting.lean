import FeatureFilter.Proofs.Grammar.Words
import FeatureFilter.Proofs.Grammar.Level

namespace FeatureFilter.Grammar.Pattern

/-- On a text rewritten by `f` a pattern takes what it takes of the text itself, each character
changed by `h`, and leaves the rest rewritten. -/
def Respects (f : List Char → List Char) (h : Char → Char) (p : Pattern) : Prop :=
  ∀ cs, p.scan (f cs) = (p.scan cs).map fun m => (m.1.map h, f m.2)

namespace Respects

variable {f : List Char → List Char} {h : Char → Char} {a b : Pattern}

theorem seq (ha : Respects f h a) (hb : Respects f h b) : Respects f h (.seq a b) := by
  intro cs
  have hfirst := ha cs
  cases hs : a.scan cs with
  | none =>
    rw [hs] at hfirst
    rw [scan_seq_of_none hfirst, scan_seq_of_none hs]
    rfl
  | some m =>
    rw [hs] at hfirst
    rw [scan_seq_of_some hfirst, scan_seq_of_some hs, hb, Option.map_map, Option.map_map]
    congr 1
    funext m'
    exact Prod.ext List.map_append.symm rfl

theorem choice (ha : Respects f h a) (hb : Respects f h b) : Respects f h (.choice a b) := by
  intro cs
  rw [scan, scan, ha]
  cases a.scan cs with
  | none => exact hb cs
  | some m => rfl

theorem optional (ha : Respects f h a) : Respects f h (.optional a) := by
  intro cs
  rw [scan, scan, ha]
  cases a.scan cs with
  | none => rfl
  | some m => rfl

theorem «unless» (ha : Respects f h a) : Respects f h (.unless a) := by
  intro cs
  rw [scan, scan, ha]
  cases a.scan cs with
  | none => rfl
  | some m => rfl

theorem many (ha : Respects f h a) (hn : a.nullable = false) : Respects f h (.many a) := by
  intro cs
  induction hlen : cs.length using Nat.strongRecOn generalizing cs with
  | ind len ih =>
    have hfirst := ha cs
    cases hs : a.scan cs with
    | none =>
      rw [hs] at hfirst
      rw [scan_many_of_none hfirst, scan_many_of_none hs]
      rfl
    | some m =>
      rw [hs] at hfirst
      have hrest := ih _ (hlen ▸ length_lt_of_scan hn hs) m.2 rfl
      rw [scan_many_of_some hfirst, scan_many_of_some hs, hrest, Option.map_map, Option.map_map]
      congr 1
      funext m'
      exact Prod.ext List.map_append.symm rfl

end Respects

/-- Characters that fit are changed by `h` one by one; where another character stands, none that
fits stands in the rewritten text. -/
structure Rewrites (f : List Char → List Char) (h : Char → Char) (fits : Char → Bool) : Prop where
  nil : f [] = []
  cons : ∀ {c} cs, fits c = true → f (c :: cs) = h c :: f cs
  stop : ∀ {c} cs, fits c = false → ∀ d ∈ (f (c :: cs)).head?, fits d = false

variable {f : List Char → List Char} {h : Char → Char} {fits : Char → Bool}

theorem scanText_rewritten {same : Char → Char → Bool} (hf : Rewrites f h fits)
    (hws : ∀ w ∈ ws, ∀ c, (same w c = true → fits c = true) ∧
      (fits c = true → same w (h c) = same w c)) (cs : List Char) :
    scanText same ws (f cs) = (scanText same ws cs).map fun m => (m.1.map h, f m.2) := by
  induction ws generalizing cs with
  | nil => rfl
  | cons w ws ih =>
    obtain ⟨hw, hws⟩ := List.forall_mem_cons.1 hws
    cases cs with
    | nil =>
      rw [hf.nil]
      rfl
    | cons c cs =>
      cases hc : fits c with
      | true =>
        rw [hf.cons cs hc, scanText, scanText, (hw c).2 hc]
        split
        · rw [ih hws, Option.map_map, Option.map_map]
          rfl
        · rfl
      | false =>
        have hnone : scanText same (w :: ws) (c :: cs) = none := by
          apply if_neg
          intro hs
          rw [(hw c).1 hs] at hc
          cases hc
        rw [hnone]
        cases hcs : f (c :: cs) with
        | nil => rfl
        | cons d ds =>
          have hd := hf.stop cs hc d (by rw [hcs]; rfl)
          apply if_neg
          intro hs
          rw [(hw d).1 hs] at hd
          cases hd

theorem respects_one {cls : CharClass} (hf : Rewrites f h fits)
    (hcls : ∀ c, (cls.has c = true → fits c = true) ∧ (fits c = true → cls.has (h c) = cls.has c)) :
    (one cls).Respects f h := by
  intro cs
  cases cs with
  | nil =>
    rw [hf.nil]
    rfl
  | cons c cs =>
    cases hc : fits c with
    | true =>
      rw [hf.cons cs hc, scan, scan, (hcls c).2 hc]
      split
      · rfl
      · rfl
    | false =>
      have hnone : (one cls).scan (c :: cs) = none := by
        apply if_neg
        intro hs
        rw [(hcls c).1 hs] at hc
        cases hc
      rw [hnone]
      cases hcs : f (c :: cs) with
      | nil => rfl
      | cons d ds =>
        have hd := hf.stop cs hc d (by rw [hcs]; rfl)
        apply if_neg
        intro hs
        rw [(hcls d).1 hs] at hd
        cases hd

/-- Whether the characters of a pattern are of the given kinds, those in texts and those that match
without regard to case. -/
def consists (sharp folded : Char → Bool) : Pattern → Bool
  | .text ws => ws.all sharp
  | .anyCase ws => ws.all folded
  | .one cls => cls != .any
  | .seq a b | .choice a b => a.consists sharp folded && b.consists sharp folded
  | .optional a | .unless a => a.consists sharp folded
  | .many a => a.consists sharp folded && !a.nullable

/-- The kinds of characters whose comparisons a rewriting leaves as they are. -/
structure Spares (h : Char → Char) (fits sharp folded : Char → Bool) : Prop where
  sharp : ∀ w, sharp w = true → ∀ c,
    ((w == c) = true → fits c = true) ∧ (fits c = true → (w == h c) = (w == c))
  folded : ∀ w, folded w = true → ∀ c, ((w == c.toLower) = true → fits c = true) ∧
    (fits c = true → (w == (h c).toLower) = (w == c.toLower))
  digit : ∀ c, (c.isDigit = true → fits c = true) ∧ (fits c = true → (h c).isDigit = c.isDigit)
  letter : ∀ c, (c.isAlpha = true → fits c = true) ∧ (fits c = true → (h c).isAlpha = c.isAlpha)

theorem respects_of_consists (hf : Rewrites f h fits) (hs : Spares h fits sharp folded)
    {p : Pattern} (hp : p.consists sharp folded = true) : p.Respects f h := by
  induction p with
  | text ws =>
    intro cs
    apply scanText_rewritten hf
    intro w hw
    exact hs.sharp w (List.all_eq_true.1 hp w hw)
  | anyCase ws =>
    intro cs
    apply scanText_rewritten hf
    intro w hw
    exact hs.folded w (List.all_eq_true.1 hp w hw)
  | one cls =>
    cases cls with
    | digit => exact respects_one hf hs.digit
    | letter => exact respects_one hf hs.letter
    | any => cases hp
  | seq a b iha ihb =>
    obtain ⟨ha, hb⟩ := Bool.and_eq_true_iff.1 hp
    exact (iha ha).seq (ihb hb)
  | choice a b iha ihb =>
    obtain ⟨ha, hb⟩ := Bool.and_eq_true_iff.1 hp
    exact (iha ha).choice (ihb hb)
  | optional a ih => exact (ih hp).optional
  | many a ih =>
    obtain ⟨ha, hn⟩ := Bool.and_eq_true_iff.1 hp
    exact (ih ha).many (Bool.not_eq_eq_eq_not.1 hn)
  | «unless» a ih => exact (ih hp).unless

/-- A quote leads from the rewriting outside quotes to the one inside, which changes nothing, and
back. -/
structure Quotes (f inside : List Char → List Char) (q : Char) : Prop where
  front : ∀ cs, (f cs).head? = some q → cs.head? = some q
  opens : ∀ cs, f (q :: cs) = q :: inside cs
  closes : ∀ cs, inside (q :: cs) = q :: f cs
  within : ∀ {c} cs, c ≠ q → inside (c :: cs) = c :: inside cs
  nil : inside [] = []

variable {inside : List Char → List Char}

theorem scan_text_one_of_head (hcs : cs.head? ≠ some q) : (text [q]).scan cs = none := by
  cases cs with
  | nil => rfl
  | cons c cs =>
    apply scan_text_one_of_ne
    intro he
    exact hcs (congrArg some he.symm)

namespace Quotes

theorem scan_opening (hq : Quotes f inside q) (cs : List Char) :
    (text [q]).scan (f cs) = ((text [q]).scan cs).map fun m => (m.1, inside m.2) := by
  by_cases hcs : cs.head? = some q
  · obtain ⟨ds, rfl⟩ := List.head?_eq_some_iff.1 hcs
    rw [hq.opens, scan_text_one, scan_text_one]
    rfl
  · rw [scan_text_one_of_head hcs, scan_text_one_of_head (mt (hq.front cs) hcs)]
    rfl

theorem scan_closing (hq : Quotes f inside q) (cs : List Char) :
    (text [q]).scan (inside cs) = ((text [q]).scan cs).map fun m => (m.1, f m.2) := by
  cases cs with
  | nil =>
    rw [hq.nil]
    rfl
  | cons c cs =>
    by_cases hc : c = q
    · subst hc
      rw [hq.closes, scan_text_one, scan_text_one]
      rfl
    · rw [hq.within cs hc, scan_text_one_of_ne (Ne.symm hc), scan_text_one_of_ne (Ne.symm hc)]
      rfl

theorem respects_except (hq : Quotes f inside q) :
    (seq (.unless (.text [q])) (.one .any)).Respects inside id := by
  intro cs
  cases cs with
  | nil =>
    rw [hq.nil]
    rfl
  | cons c cs =>
    by_cases hc : c = q
    · subst hc
      rw [hq.closes, scan_except, scan_except, if_pos rfl, if_pos rfl]
      rfl
    · rw [hq.within cs hc, scan_except, scan_except, if_neg (Ne.symm hc), if_neg (Ne.symm hc)]
      rfl

theorem respects_doubled (hq : Quotes f inside q) : (text [q, q]).Respects inside id := by
  intro cs
  rw [scan_text_cons, scan_text_cons]
  have hfirst := hq.scan_closing cs
  cases hs : (text [q]).scan cs with
  | none =>
    rw [hs] at hfirst
    rw [scan_seq_of_none hfirst, scan_seq_of_none hs]
    rfl
  | some m =>
    rw [hs] at hfirst
    rw [scan_seq_of_some hfirst, scan_seq_of_some hs, hq.scan_opening, Option.map_map,
      Option.map_map]
    congr 1
    funext m'
    exact Prod.ext (List.map_id _).symm rfl

theorem respects_quoted (hq : Quotes f inside q) (hp : Respects inside id p) :
    (seq (.text [q]) (.seq p (.text [q]))).Respects f id := by
  intro cs
  have hopen := hq.scan_opening cs
  cases hs : (text [q]).scan cs with
  | none =>
    rw [hs] at hopen
    rw [scan_seq_of_none hopen, scan_seq_of_none hs]
    rfl
  | some m =>
    rw [hs] at hopen
    have hbody := hp m.2
    rw [scan_seq_of_some hopen, scan_seq_of_some hs]
    cases hb : p.scan m.2 with
    | none =>
      rw [hb] at hbody
      rw [scan_seq_of_none hbody, scan_seq_of_none hb]
      rfl
    | some m' =>
      rw [hb] at hbody
      rw [scan_seq_of_some hbody, scan_seq_of_some hb, hq.scan_closing]
      simp only [Option.map_map]
      congr 1
      funext m''
      simp only [Function.comp_apply, List.map_id]

theorem respects_string (hq : Quotes f inside '\'') : string.Respects f id :=
  hq.respects_quoted ((hq.respects_doubled.choice hq.respects_except).many rfl)

theorem respects_quotedIdentifier (hq : Quotes f inside '"') : quotedIdentifier.Respects f id :=
  hq.respects_quoted (hq.respects_except.seq (hq.respects_except.many rfl))

end Quotes
end FeatureFilter.Grammar.Pattern
