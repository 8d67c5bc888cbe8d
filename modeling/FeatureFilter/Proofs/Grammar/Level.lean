import FeatureFilter.Proofs.Grammar.Scanning

namespace FeatureFilter.Grammar

/-- The quote that is open at a point, and how deep in parentheses the point stands. -/
structure Level where
  quote : Option Char
  depth : Int

namespace Level

/-- The level behind one more character. Inside quotes only the same quote counts. -/
def read (l : Level) (c : Char) : Level :=
  match l.quote with
  | some q => if c = q then ⟨none, l.depth⟩ else l
  | none =>
    if c = '\'' ∨ c = '"' then ⟨some c, l.depth⟩
    else if c = '(' then ⟨none, l.depth + 1⟩
    else if c = ')' then ⟨none, l.depth - 1⟩
    else l

def after (l : Level) (cs : List Char) : Level := cs.foldl read l

theorem after_append (l : Level) (cs ds : List Char) :
    l.after (cs ++ ds) = (l.after cs).after ds := List.foldl_append

theorem after_deeper (q : Option Char) (n k : Int) (cs : List Char) :
    after ⟨q, n + k⟩ cs = ⟨(after ⟨q, n⟩ cs).quote, (after ⟨q, n⟩ cs).depth + k⟩ := by
  induction cs generalizing q n with
  | nil => rfl
  | cons c cs ih =>
    have hread : read ⟨q, n + k⟩ c = ⟨(read ⟨q, n⟩ c).quote, (read ⟨q, n⟩ c).depth + k⟩ := by
      simp only [read]
      split
      · split <;> rfl
      · split
        · rfl
        · split
          · simp only [Level.mk.injEq, true_and]
            omega
          · split
            · simp only [Level.mk.injEq, true_and]
              omega
            · rfl
    simp only [after, List.foldl_cons] at ih ⊢
    rw [hread]
    exact ih _ _

theorem after_add (h : after ⟨q, n⟩ cs = ⟨q', m⟩) (k : Int) :
    after ⟨q, n + k⟩ cs = ⟨q', m + k⟩ := by
  rw [after_deeper, h]

end Level

def isPlain (c : Char) : Bool := c != '\'' && c != '"' && c != '(' && c != ')'

theorem eq_of_not_plain (h : isPlain c = false) : c = '\'' ∨ c = '"' ∨ c = '(' ∨ c = ')' := by
  simpa only [isPlain, Bool.and_eq_false_iff, bne_eq_false_iff_eq, or_assoc] using h

theorem isPlain_of_toLower (h : isPlain c.toLower = true) : isPlain c = true := by
  cases hc : isPlain c with
  | true => rfl
  | false => obtain rfl | rfl | rfl | rfl := eq_of_not_plain hc <;> cases h

theorem isPlain_of_has {cls : CharClass} (hcls : cls ≠ .any) (h : cls.has c = true) :
    isPlain c = true := by
  cases hc : isPlain c with
  | true => rfl
  | false =>
    cases cls with
    | any => exact absurd rfl hcls
    | digit | letter => obtain rfl | rfl | rfl | rfl := eq_of_not_plain hc <;> cases h

theorem Level.after_of_plain (h : cs.all isPlain = true) : after ⟨none, n⟩ cs = ⟨none, n⟩ := by
  induction cs with
  | nil => rfl
  | cons c cs ih =>
    obtain ⟨hc, hcs⟩ := List.all_cons.symm.trans h |> Bool.and_eq_true_iff.1
    have hread : read ⟨none, n⟩ c = ⟨none, n⟩ := by
      simp only [isPlain, Bool.and_eq_true, bne_iff_ne] at hc
      simp [read, hc]
    simp only [after, List.foldl_cons, hread]
    exact ih hcs

namespace Pattern

/-- A pattern that keeps the level under a quote, or under none, and that takes the same where the
quote is closed in the end, whatever stands behind a closing parenthesis. -/
structure Framed (q : Option Char) (p : Pattern) : Prop where
  level : ∀ {cs taken rest}, p.scan cs = some (taken, rest) → ∀ n, Level.after ⟨q, n⟩ taken = ⟨q, n⟩
  extend : ∀ {cs n}, (Level.after ⟨q, n⟩ cs).quote = none → ∀ k,
    p.scan (cs ++ ')' :: k) = (p.scan cs).map fun (taken, rest) => (taken, rest ++ ')' :: k)

namespace Framed

theorem closed (h : Framed q p) (hs : p.scan cs = some (taken, rest))
    (hc : (Level.after ⟨q, n⟩ cs).quote = none) : (Level.after ⟨q, n⟩ rest).quote = none := by
  rw [← append_of_scan hs, Level.after_append, h.level hs] at hc
  exact hc

theorem seq (ha : Framed q a) (hb : Framed q b) : Framed q (.seq a b) where
  level := by
    intro cs taken rest hs n
    obtain ⟨first, mid, more, hsa, hsb, rfl⟩ := exists_of_scan_seq hs
    rw [Level.after_append, ha.level hsa, hb.level hsb]
  extend := by
    intro cs n hc k
    have hext := ha.extend hc k
    cases hsa : a.scan cs with
    | none =>
      rw [hsa] at hext
      rw [scan_seq_of_none hext, scan_seq_of_none hsa]
      rfl
    | some m =>
      rw [hsa] at hext
      rw [scan_seq_of_some hext, scan_seq_of_some hsa, hb.extend (ha.closed hsa hc) k,
        Option.map_map, Option.map_map]
      rfl

theorem choice (ha : Framed q a) (hb : Framed q b) : Framed q (.choice a b) where
  level := by
    intro cs taken rest hs n
    rw [scan] at hs
    split at hs
    · exact hb.level hs n
    · rename_i hsa
      cases hs
      exact ha.level hsa n
  extend := by
    intro cs n hc k
    rw [scan, scan, ha.extend hc k]
    cases hsa : a.scan cs with
    | none => exact hb.extend hc k
    | some m => rfl

theorem optional (ha : Framed q a) : Framed q (.optional a) where
  level := by
    intro cs taken rest hs n
    rw [scan] at hs
    split at hs
    · cases hs
      rfl
    · rename_i hsa
      cases hs
      exact ha.level hsa n
  extend := by
    intro cs n hc k
    rw [scan, scan, ha.extend hc k]
    cases a.scan cs <;> rfl

theorem «unless» (ha : Framed q a) : Framed q (.unless a) where
  level := by
    intro cs taken rest hs n
    rw [scan] at hs
    split at hs
    · cases hs
      rfl
    · cases hs
  extend := by
    intro cs n hc k
    rw [scan, scan, ha.extend hc k]
    cases a.scan cs <;> rfl

theorem many (ha : Framed q a) (hn : a.nullable = false) : Framed q (.many a) where
  level := by
    intro cs taken rest hs n
    induction hlen : cs.length using Nat.strongRecOn generalizing cs taken rest with
    | ind len ih =>
      cases hsa : a.scan cs with
      | none =>
        cases (scan_many_of_none hsa).symm.trans hs
        rfl
      | some m =>
        obtain ⟨taken₁, rest₁⟩ := m
        obtain ⟨⟨more, rest'⟩, hmore, he⟩ :=
          Option.map_eq_some_iff.1 ((scan_many_of_some hsa).symm.trans hs)
        cases he
        rw [Level.after_append, ha.level hsa]
        exact ih _ (hlen ▸ length_lt_of_scan hn hsa) hmore rfl
  extend := by
    intro cs n hc k
    induction hlen : cs.length using Nat.strongRecOn generalizing cs with
    | ind len ih =>
      have hext := ha.extend hc k
      cases hsa : a.scan cs with
      | none =>
        rw [hsa] at hext
        rw [scan_many_of_none hext, scan_many_of_none hsa]
        rfl
      | some m =>
        obtain ⟨taken₁, rest₁⟩ := m
        rw [hsa] at hext
        have hrest := ih _ (hlen ▸ length_lt_of_scan hn hsa) (ha.closed hsa hc) rfl
        rw [scan_many_of_some hext, scan_many_of_some hsa, hrest, Option.map_map, Option.map_map]
        rfl

end Framed

theorem all_plain_of_scanText {same : Char → Char → Bool}
    (hsame : ∀ w c, isPlain w = true → same w c = true → isPlain c = true)
    (hws : ws.all isPlain = true) (h : scanText same ws cs = some (taken, rest)) :
    taken.all isPlain = true := by
  fun_induction scanText same ws cs generalizing taken rest with
  | case1 =>
    cases h
    rfl
  | case2 => cases h
  | case3 w ws c cs hs ih =>
    obtain ⟨⟨more, rest'⟩, hm, he⟩ := Option.map_eq_some_iff.1 h
    cases he
    rw [List.all_cons, Bool.and_eq_true] at hws ⊢
    exact ⟨hsame w c hws.1 hs, ih hws.2 hm⟩
  | case4 => cases h

theorem scanText_append {same : Char → Char → Bool}
    (hsame : ∀ w c, isPlain w = true → same w c = true → isPlain c = true)
    (hws : ws.all isPlain = true) (cs k : List Char) :
    scanText same ws (cs ++ ')' :: k) =
      (scanText same ws cs).map fun (taken, rest) => (taken, rest ++ ')' :: k) := by
  fun_induction scanText same ws cs with
  | case1 => rfl
  | case2 w ws =>
    rw [List.all_cons, Bool.and_eq_true] at hws
    have hw : ¬ same w ')' = true := fun hs => Bool.false_ne_true (hsame w ')' hws.1 hs)
    rw [List.nil_append, scanText, if_neg hw]
    rfl
  | case3 w ws c cs hs ih =>
    rw [List.all_cons, Bool.and_eq_true] at hws
    rw [List.cons_append, scanText, if_pos hs, ih hws.2, Option.map_map, Option.map_map]
    rfl
  | case4 w ws c cs hs =>
    rw [List.cons_append, scanText, if_neg hs]
    rfl

def plain : Pattern → Bool
  | .text ws | .anyCase ws => ws.all isPlain
  | .one cls => cls != .any
  | .seq a b | .choice a b => a.plain && b.plain
  | .optional a | .unless a => a.plain
  | .many a => a.plain && !a.nullable

theorem framed_of_plain {p : Pattern} (h : p.plain = true) : p.Framed none := by
  induction p with
  | text ws =>
    have hsame : ∀ w c, isPlain w = true → (w == c) = true → isPlain c = true :=
      fun w c hw hwc => eq_of_beq hwc ▸ hw
    exact ⟨fun hs n => Level.after_of_plain (all_plain_of_scanText hsame h hs),
      fun _ k => scanText_append hsame h _ k⟩
  | anyCase ws =>
    have hsame : ∀ w c : Char, isPlain w = true → (w == c.toLower) = true → isPlain c = true :=
      fun w c hw hwc => isPlain_of_toLower (eq_of_beq hwc ▸ hw)
    exact ⟨fun hs n => Level.after_of_plain (all_plain_of_scanText hsame h hs),
      fun _ k => scanText_append hsame h _ k⟩
  | one cls =>
    have hcls : cls ≠ .any := bne_iff_ne.1 h
    refine ⟨?_, ?_⟩
    · intro cs taken rest hs n
      cases cs with
      | nil => cases hs
      | cons c cs =>
        rw [scan] at hs
        split at hs
        · rename_i hc
          cases hs
          exact Level.after_of_plain (by simp [isPlain_of_has hcls hc])
        · cases hs
    · intro cs n _ k
      cases cs with
      | nil =>
        have hc : ¬ cls.has ')' = true := fun hc => Bool.false_ne_true (isPlain_of_has hcls hc)
        rw [List.nil_append, scan, scan, if_neg hc]
        rfl
      | cons c cs =>
        rw [List.cons_append, scan, scan]
        split <;> rfl
  | seq a b iha ihb =>
    obtain ⟨ha, hb⟩ := Bool.and_eq_true_iff.1 h
    exact (iha ha).seq (ihb hb)
  | choice a b iha ihb =>
    obtain ⟨ha, hb⟩ := Bool.and_eq_true_iff.1 h
    exact (iha ha).choice (ihb hb)
  | optional a ih => exact (ih h).optional
  | many a ih =>
    obtain ⟨ha, hn⟩ := Bool.and_eq_true_iff.1 h
    exact (ih ha).many (Bool.not_eq_eq_eq_not.1 hn)
  | «unless» a ih => exact (ih h).unless

theorem scan_text_one (q : Char) (cs : List Char) :
    (text [q]).scan (q :: cs) = some ([q], cs) := by
  simp only [scan, scanText, beq_self_eq_true, if_true, Option.map_some]

theorem scan_text_one_of_ne (h : q ≠ c) (cs : List Char) : (text [q]).scan (c :: cs) = none :=
  if_neg (mt eq_of_beq h)

theorem eq_of_scan_text_one (h : (text [q]).scan cs = some (taken, rest)) :
    taken = [q] ∧ cs = q :: rest := by
  cases cs with
  | nil => cases h
  | cons c cs =>
    by_cases hc : q = c
    · subst hc
      cases (scan_text_one q cs).symm.trans h
      exact ⟨rfl, rfl⟩
    · cases (scan_text_one_of_ne hc cs).symm.trans h

theorem scan_text_one_append (h : cs ≠ [] ∨ q ≠ ')') (k : List Char) :
    (text [q]).scan (cs ++ ')' :: k) =
      ((text [q]).scan cs).map fun (taken, rest) => (taken, rest ++ ')' :: k) := by
  cases cs with
  | nil =>
    rcases h with h | h
    · exact absurd rfl h
    · exact scan_text_one_of_ne h k
  | cons c cs =>
    by_cases hc : q = c
    · subst hc
      rw [List.cons_append, scan_text_one, scan_text_one]
      rfl
    · rw [List.cons_append, scan_text_one_of_ne hc, scan_text_one_of_ne hc]
      rfl

theorem scan_text_cons (w : Char) (ws cs : List Char) :
    (text (w :: ws)).scan cs = (seq (text [w]) (text ws)).scan cs := by
  cases cs with
  | nil => rfl
  | cons c cs =>
    by_cases hc : w = c
    · subst hc
      rw [scan_seq_of_some (scan_text_one w cs), scan, scanText, if_pos (beq_self_eq_true w)]
      rfl
    · rw [scan_seq_of_none (scan_text_one_of_ne hc cs)]
      exact if_neg (mt eq_of_beq hc)

end Pattern

theorem Level.read_open (hq : q = '\'' ∨ q = '"') : read ⟨none, n⟩ q = ⟨some q, n⟩ := if_pos hq

theorem Level.read_close (q : Char) : read ⟨some q, n⟩ q = ⟨none, n⟩ := if_pos rfl

theorem Level.read_inside (h : c ≠ q) : read ⟨some q, n⟩ c = ⟨some q, n⟩ := if_neg h

namespace Pattern

theorem ne_close (hq : q = '\'' ∨ q = '"') : q ≠ ')' := by
  rintro rfl
  rcases hq with hq | hq <;> cases hq

theorem Framed.quoted (hq : q = '\'' ∨ q = '"') (h : Framed (some q) p) :
    Framed none (.seq (.text [q]) (.seq p (.text [q]))) where
  level := by
    intro cs taken rest hs n
    obtain ⟨first, mid, more, hopen, hmore, rfl⟩ := exists_of_scan_seq hs
    obtain ⟨inner, mid', last, hinner, hclose, rfl⟩ := exists_of_scan_seq hmore
    obtain ⟨rfl, rfl⟩ := eq_of_scan_text_one hopen
    obtain ⟨rfl, rfl⟩ := eq_of_scan_text_one hclose
    calc Level.after ⟨none, n⟩ ([q] ++ (inner ++ [q]))
        = (Level.after (.read ⟨none, n⟩ q) inner).read q := Level.after_append _ (q :: inner) [q]
      _ = ⟨none, n⟩ := by rw [Level.read_open hq, h.level hinner, Level.read_close]
  extend := by
    intro cs n hc k
    cases cs with
    | nil => exact scan_seq_of_none (scan_text_one_of_ne (ne_close hq) k)
    | cons c cs =>
      by_cases hqc : q = c
      · subst hqc
        have hc : (Level.after ⟨some q, n⟩ cs).quote = none := Level.read_open hq ▸ hc
        have hrest : (Pattern.seq p (.text [q])).scan (cs ++ ')' :: k) =
            ((Pattern.seq p (.text [q])).scan cs).map fun (t, r) => (t, r ++ ')' :: k) := by
          have hext := h.extend hc k
          cases hp : p.scan cs with
          | none =>
            rw [hp] at hext
            rw [scan_seq_of_none hext, scan_seq_of_none hp]
            rfl
          | some m =>
            obtain ⟨inner, rest⟩ := m
            -- The quote is still open here, so the text goes on.
            have hne : rest ≠ [] := by
              rintro rfl
              cases h.closed hp hc
            rw [hp] at hext
            rw [scan_seq_of_some hext, scan_seq_of_some hp, scan_text_one_append (.inl hne),
              Option.map_map, Option.map_map]
            rfl
        rw [List.cons_append, scan_seq_of_some (scan_text_one q _),
          scan_seq_of_some (scan_text_one q cs), hrest, Option.map_map, Option.map_map]
        rfl
      · rw [List.cons_append, scan_seq_of_none (scan_text_one_of_ne hqc _),
          scan_seq_of_none (scan_text_one_of_ne hqc cs)]
        rfl

/-- A quote that is written twice does not end the quoted text. -/
theorem framed_doubled (hq : q = '\'' ∨ q = '"') : Framed (some q) (.text [q, q]) where
  level := by
    intro cs taken rest hs n
    rw [scan_text_cons] at hs
    obtain ⟨first, mid, more, h₁, h₂, rfl⟩ := exists_of_scan_seq hs
    obtain ⟨rfl, rfl⟩ := eq_of_scan_text_one h₁
    obtain ⟨rfl, rfl⟩ := eq_of_scan_text_one h₂
    calc Level.after ⟨some q, n⟩ [q, q]
        = (Level.read ⟨some q, n⟩ q).read q := rfl
      _ = ⟨some q, n⟩ := by rw [Level.read_close, Level.read_open hq]
  extend := by
    intro cs n hc k
    cases cs with
    | nil => cases hc
    | cons c cs =>
      rw [List.cons_append, scan_text_cons, scan_text_cons]
      by_cases hqc : q = c
      · subst hqc
        rw [scan_seq_of_some (scan_text_one q _), scan_seq_of_some (scan_text_one q cs),
          scan_text_one_append (.inr (ne_close hq)), Option.map_map, Option.map_map]
        rfl
      · rw [scan_seq_of_none (scan_text_one_of_ne hqc _),
          scan_seq_of_none (scan_text_one_of_ne hqc cs)]
        rfl

theorem scan_except (q c : Char) (cs : List Char) :
    (seq (.unless (.text [q])) (.one .any)).scan (c :: cs) =
      if q = c then none else some ([c], cs) := by
  by_cases hqc : q = c
  · subst hqc
    rw [if_pos rfl]
    exact scan_seq_of_none (by rw [scan, scan_text_one])
  · have hun : (Pattern.unless (.text [q])).scan (c :: cs) = some ([], c :: cs) := by
      rw [scan, scan_text_one_of_ne hqc]
    rw [if_neg hqc, scan_seq_of_some hun]
    rfl

theorem framed_except (q : Char) : Framed (some q) (.seq (.unless (.text [q])) (.one .any)) where
  level := by
    intro cs taken rest hs n
    cases cs with
    | nil => cases hs
    | cons c cs =>
      rw [scan_except] at hs
      split at hs
      · cases hs
      · rename_i hqc
        cases hs
        exact Level.read_inside (Ne.symm hqc)
  extend := by
    intro cs n hc k
    cases cs with
    | nil => cases hc
    | cons c cs =>
      rw [List.cons_append, scan_except, scan_except]
      split <;> rfl

end Pattern
end FeatureFilter.Grammar
