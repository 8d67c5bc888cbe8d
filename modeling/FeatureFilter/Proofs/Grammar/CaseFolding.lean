import FeatureFilter.Proofs.Grammar.Rewriting
import FeatureFilter.Proofs.Grammar.Runs
import FeatureFilter.Proofs.Grammar.Trees

namespace FeatureFilter.Grammar

open Text (Position)

/-- The text with the letters made small that are not in a string. Each quote leads into a string
or out of it. -/
def lowerOutside (quoted : Bool) : List Char → List Char
  | [] => []
  | c :: cs =>
    if c = '\'' then c :: lowerOutside (!quoted) cs
    else (if quoted then c else c.toLower) :: lowerOutside quoted cs

theorem length_lowerOutside (quoted : Bool) (cs : List Char) :
    (lowerOutside quoted cs).length = cs.length := by
  induction cs generalizing quoted with
  | nil => rfl
  | cons c cs ih =>
    rw [lowerOutside]
    split
    · exact congrArg (· + 1) (ih _)
    · exact congrArg (· + 1) (ih _)

theorem isDigit_iff (c : Char) : c.isDigit = true ↔ 48 ≤ c.toNat ∧ c.toNat ≤ 57 :=
  Bool.and_eq_true_iff.trans (and_congr (decide_eq_true_iff.trans UInt32.le_iff_toNat_le)
    (decide_eq_true_iff.trans UInt32.le_iff_toNat_le))

theorem isAlpha_toLower (c : Char) : c.toLower.isAlpha = c.isAlpha := by
  cases h : c.isUpper with
  | false => rw [toLower_of_not_isUpper h]
  | true =>
    have hnat := toNat_toLower_of_isUpper h
    have hc := (isUpper_iff c).1 h
    have hupper : c.isAlpha = true := Bool.or_eq_true_iff.2 (.inl h)
    have hlower : c.toLower.isAlpha = true :=
      Bool.or_eq_true_iff.2 (.inr (isLower_of_toNat (by omega)))
    rw [hupper, hlower]

theorem isDigit_toLower (c : Char) : c.toLower.isDigit = c.isDigit := by
  cases h : c.isUpper with
  | false => rw [toLower_of_not_isUpper h]
  | true =>
    have hnat := toNat_toLower_of_isUpper h
    have hc := (isUpper_iff c).1 h
    rw [Bool.eq_iff_iff, isDigit_iff, isDigit_iff]
    omega

theorem toLower_eq_iff {c w : Char} (hw : w.isAlpha = false) : c.toLower = w ↔ c = w := by
  cases h : c.isUpper with
  | false => rw [toLower_of_not_isUpper h]
  | true =>
    have hc : c.isAlpha = true := Bool.or_eq_true_iff.2 (.inl h)
    constructor
    · intro heq
      rw [← heq, isAlpha_toLower, hc] at hw
      cases hw
    · intro heq
      rw [← heq, hc] at hw
      cases hw

theorem advance_toLower (p : Position) (c : Char) : p.advance c.toLower = p.advance c := by
  cases h : c.isUpper with
  | false => rw [toLower_of_not_isUpper h]
  | true =>
    have hnat := toNat_toLower_of_isUpper h
    have hc := (isUpper_iff c).1 h
    have hsize : c.utf8Size = 1 := Char.utf8Size_eq_one_iff.2 (UInt32.le_iff_toNat_le.2 (by
      show c.toNat ≤ 127
      omega))
    have hsize' : c.toLower.utf8Size = 1 := Char.utf8Size_eq_one_iff.2 (UInt32.le_iff_toNat_le.2 (by
      show c.toLower.toNat ≤ 127
      omega))
    have hline : c.toLower = '\n' ↔ c = '\n' := toLower_eq_iff rfl
    rw [Position.advance, Position.advance, hsize, hsize']
    simp only [hline]

theorem after_map_toLower (p : Position) (cs : List Char) :
    p.after (cs.map Char.toLower) = p.after cs := by
  induction cs generalizing p with
  | nil => rfl
  | cons c cs ih =>
    have h := ih (p.advance c.toLower)
    rw [advance_toLower p c] at h
    rw [List.map_cons, Position.after, List.foldl_cons, advance_toLower]
    exact h

theorem lowerOutside_cons (hc : c ≠ '\'') (cs : List Char) :
    lowerOutside false (c :: cs) = c.toLower :: lowerOutside false cs := if_neg hc

/-- The characters of a pattern that are matched as they are: they have no case. -/
def isCaseless (c : Char) : Bool := c != '\'' && !c.isAlpha

namespace Pattern

theorem rewrites_lowerOutside : Rewrites (lowerOutside false) Char.toLower (· != '\'') where
  nil := rfl
  cons cs hc := lowerOutside_cons (bne_iff_ne.1 hc) cs
  stop := by
    intro c cs hc d hd
    cases eq_of_beq (Bool.not_eq_eq_eq_not.1 hc)
    cases hd
    rfl

theorem spares_toLower : Spares Char.toLower (· != '\'') isCaseless (· != '\'') where
  sharp := by
    intro w hw c
    obtain ⟨hquote, hletter⟩ := Bool.and_eq_true_iff.1 hw
    constructor
    · intro heq
      rw [← eq_of_beq heq]
      exact hquote
    · intro _
      rw [Bool.eq_iff_iff, beq_iff_eq, beq_iff_eq, eq_comm,
        toLower_eq_iff (Bool.not_eq_eq_eq_not.1 hletter), eq_comm]
  folded := by
    intro w hw c
    constructor
    · intro heq
      rw [bne_iff_ne]
      intro hc
      rw [hc] at heq
      rw [eq_of_beq heq] at hw
      cases hw
    · intro _
      rw [toLower_toLower]
  digit := by
    intro c
    constructor
    · intro hd
      rw [bne_iff_ne]
      intro hc
      rw [hc] at hd
      cases hd
    · intro _
      exact isDigit_toLower c
  letter := by
    intro c
    constructor
    · intro hl
      rw [bne_iff_ne]
      intro hc
      rw [hc] at hl
      cases hl
    · intro _
      exact isAlpha_toLower c

theorem quotes_lowerOutside : Quotes (lowerOutside false) (lowerOutside true) '\'' where
  front := by
    intro cs h
    cases cs with
    | nil => cases h
    | cons c cs =>
      by_cases hc : c = '\''
      · exact congrArg some hc
      · rw [lowerOutside_cons hc] at h
        exact congrArg some ((toLower_eq_iff rfl).1 (Option.some.inj h))
  opens _ := rfl
  closes _ := rfl
  within cs hc := if_neg hc
  nil := rfl

end Pattern

def lowerLexeme : Rule → List Char → List Char
  | .stringLiteral, cs => cs
  | _, cs => cs.map Char.toLower

theorem after_lowerLexeme (p : Position) (r : Rule) (cs : List Char) :
    p.after (lowerLexeme r cs) = p.after cs := by
  cases r with
  | stringLiteral => rfl
  | _ => exact after_map_toLower p cs

def Phrase.marked (f : Char → Bool) : Phrase ρ → Bool
  | .mark ws => ws.all f
  | .seq x y | .choice x y => x.marked f && y.marked f
  | .optional x | .many x => x.marked f
  | .nothing | .endOfText | .rule _ => true

/-- The tokens of a grammar take of a lowered text without double quotes what they take of the text
itself, lowered. -/
structure RuleSet.CaseBlind (g : RuleSet Rule) : Prop where
  token : ∀ r p, g.define r = .token p → ∀ cs, '"' ∉ cs →
    p.scan (lowerOutside false cs) =
      (p.scan cs).map fun m => (lowerLexeme r m.1, lowerOutside false m.2)
  phrase : ∀ r e, g.define r = .phrase e → e.marked isCaseless = true

def Cursor.lowered (c : Cursor) : Cursor := ⟨c.position, lowerOutside false c.rest⟩

def lowerTrees (ts : List (ParseTree Rule)) : List (ParseTree Rule) :=
  ParseTree.changedEach id lowerLexeme ts

def Outcome.lowered (o : Outcome Rule) : Outcome Rule :=
  ⟨o.attempts, o.result.map fun m => (m.1.lowered, lowerTrees m.2)⟩

def Unquoted (c : Cursor) : Prop := '"' ∉ c.rest

theorem steady_unquoted : Steady Unquoted fun _ : Attempts Rule => True where
  move := by
    intro c taken rest hc happ hmem
    apply hc
    rw [← happ]
    exact List.mem_append_right taken hmem
  record _ _ _ _ := trivial

/-- The step does at a point of the lowered text what it does in the text itself. -/
def Step.CaseBlind (step : Step Rule) : Prop :=
  ∀ c a, Unquoted c → step c.lowered a = (step c a).lowered

theorem isBlank_lowerOutside (c : Char) (cs : List Char) :
    ∃ d, lowerOutside false (c :: cs) = d :: (lowerOutside false (c :: cs)).tail ∧
      isBlank d = isBlank c := by
  by_cases hc : c = '\''
  · subst hc
    exact ⟨_, rfl, rfl⟩
  · refine ⟨c.toLower, lowerOutside_cons hc cs ▸ rfl, ?_⟩
    rw [Bool.eq_iff_iff]
    simp only [isBlank, Bool.or_eq_true, beq_iff_eq]
    rw [toLower_eq_iff rfl, toLower_eq_iff rfl, toLower_eq_iff rfl, toLower_eq_iff rfl]

theorem toLower_of_isBlank (h : isBlank c = true) : c.toLower = c := by
  simp only [isBlank, Bool.or_eq_true, beq_iff_eq] at h
  obtain ((rfl | rfl) | rfl) | rfl := h <;> rfl

theorem blanks_lowerOutside (cs : List Char) :
    (lowerOutside false cs).takeWhile isBlank = cs.takeWhile isBlank ∧
      (lowerOutside false cs).dropWhile isBlank = lowerOutside false (cs.dropWhile isBlank) := by
  induction cs with
  | nil => exact ⟨rfl, rfl⟩
  | cons c cs ih =>
    cases hc : isBlank c with
    | true =>
      have hquote : c ≠ '\'' := by
        intro heq
        rw [heq] at hc
        cases hc
      rw [lowerOutside_cons hquote, toLower_of_isBlank hc, List.takeWhile_cons_of_pos hc,
        List.takeWhile_cons_of_pos hc, List.dropWhile_cons_of_pos hc, List.dropWhile_cons_of_pos hc]
      exact ⟨congrArg (c :: ·) ih.1, ih.2⟩
    | false =>
      obtain ⟨d, hd, hblank⟩ := isBlank_lowerOutside c cs
      have hc' : ¬isBlank c = true := Bool.eq_false_iff.1 hc
      have hd' : ¬isBlank d = true := hblank ▸ hc'
      rw [List.takeWhile_cons_of_neg hc', List.dropWhile_cons_of_neg hc', hd,
        List.takeWhile_cons_of_neg hd', List.dropWhile_cons_of_neg hd']
      exact ⟨rfl, rfl⟩

theorem Cursor.skipBlanks_lowered (c : Cursor) : c.lowered.skipBlanks = c.skipBlanks.lowered := by
  obtain ⟨htake, hdrop⟩ := blanks_lowerOutside c.rest
  simp only [skipBlanks, moveTo, lowered, htake, hdrop]

theorem Outcome.lowered_onward {o : Outcome Rule} {next : Step Rule}
    {failed failed' : Attempts Rule → Outcome Rule}
    (ho : o.Keeps Unquoted fun _ => True) (hf : ∀ a, failed' a = (failed a).lowered)
    (hn : next.CaseBlind) : o.lowered.onward failed' next = (o.onward failed next).lowered := by
  obtain ⟨a, result⟩ := o
  cases result with
  | none => exact hf a
  | some m =>
    obtain ⟨d, ts⟩ := m
    have hmore := hn d a (ho.result d ts rfl)
    simp only [onward, lowered, Option.map_some, hmore]
    cases next d a with
    | mk b result =>
      cases result with
      | none => rfl
      | some m =>
        simp only [Option.map_some, lowerTrees, ParseTree.changedEach_append]

theorem Outcome.lowered_otherwise {o : Outcome Rule}
    {failed failed' : Attempts Rule → Outcome Rule} (hf : ∀ a, failed' a = (failed a).lowered) :
    o.lowered.otherwise failed' = (o.otherwise failed).lowered := by
  obtain ⟨a, result⟩ := o
  cases result with
  | none => exact hf a
  | some m => rfl

theorem runMany_caseBlind {step : Step Rule} (hk : step.Keeps Unquoted fun _ => True)
    (h : step.CaseBlind) (n : Nat) : Step.CaseBlind (runMany step n) := by
  induction n with
  | zero =>
    intro c a _
    rfl
  | succ n ih =>
    intro c a hc
    have hskip := steady_unquoted.skipBlanks hc
    rw [runMany_succ, runMany_succ, Cursor.skipBlanks_lowered, h _ a hskip]
    apply Outcome.lowered_onward (hk _ a hskip trivial) _ ih
    intro b
    rfl

theorem Phrase.run_caseBlind {call : Rule → Step Rule}
    (hk : ∀ r, (call r).Keeps Unquoted fun _ => True) (h : ∀ r, (call r).CaseBlind)
    {e : Phrase Rule} (he : e.marked isCaseless = true) : Step.CaseBlind (e.run call) := by
  induction e with
  | nothing =>
    intro c a _
    rfl
  | endOfText =>
    intro c a _
    obtain ⟨p, rest⟩ := c
    cases rest with
    | nil => rfl
    | cons d ds =>
      obtain ⟨d', hd', _⟩ := isBlank_lowerOutside d ds
      have hempty : (Cursor.lowered ⟨p, d :: ds⟩).rest.isEmpty = false := congrArg List.isEmpty hd'
      rw [run, hempty]
      rfl
  | mark ws =>
    intro c a _
    have hscan := Pattern.respects_of_consists Pattern.rewrites_lowerOutside Pattern.spares_toLower
      (p := .text ws) he c.rest
    simp only [run, Cursor.lowered, hscan]
    cases Pattern.scan (.text ws) c.rest with
    | none => rfl
    | some m =>
      simp only [Option.map_some, Cursor.moveTo, after_map_toLower]
      rfl
  | rule r => exact h r
  | seq x y ihx ihy =>
    obtain ⟨hx, hy⟩ := Bool.and_eq_true_iff.1 he
    intro c a hc
    rw [run_seq, run_seq, ihx hx c a hc]
    apply Outcome.lowered_onward (x.run_keeps steady_unquoted hk c a hc trivial)
    · intro b
      rfl
    · intro d b hd
      simp only [Cursor.skipBlanks_lowered]
      exact ihy hy d.skipBlanks b (steady_unquoted.skipBlanks hd)
  | choice x y ihx ihy =>
    obtain ⟨hx, hy⟩ := Bool.and_eq_true_iff.1 he
    intro c a hc
    rw [run_choice, run_choice, ihx hx c a hc]
    apply Outcome.lowered_otherwise
    intro b
    exact ihy hy c b hc
  | optional x ih =>
    intro c a hc
    rw [run_optional, run_optional, ih he c a hc]
    apply Outcome.lowered_otherwise
    intro b
    rfl
  | many x ih =>
    intro c a hc
    rw [run_many, run_many, ih he c a hc]
    apply Outcome.lowered_onward (x.run_keeps steady_unquoted hk c a hc trivial)
    · intro b
      rfl
    · intro d b hd
      have hlength : d.lowered.rest.length = d.rest.length := length_lowerOutside false d.rest
      simp only [hlength]
      exact runMany_caseBlind (x.run_keeps steady_unquoted hk) (ih he) _ d b hd

theorem RuleSet.call_caseBlind {g : RuleSet Rule} (hg : g.CaseBlind) (n : Nat) (r : Rule) :
    Step.CaseBlind (g.call n r) := by
  induction n generalizing r with
  | zero =>
    intro c a _
    rfl
  | succ n ih =>
    intro c a hc
    rw [RuleSet.call, RuleSet.call]
    cases hdef : g.define r with
    | token p =>
      simp only [Cursor.lowered, hg.token r p hdef c.rest hc]
      cases p.scan c.rest with
      | none => rfl
      | some m =>
        simp only [Option.map_some, Cursor.moveTo, after_lowerLexeme]
        rfl
    | phrase e =>
      have hrun := Phrase.run_caseBlind (g.call_keeps steady_unquoted n) ih
        (hg.phrase r e hdef) c a hc
      simp only [hrun]
      cases e.run (g.call n) c a with
      | mk b result =>
        cases result with
        | none => rfl
        | some m => rfl

theorem RuleSet.parse_lowered {g : RuleSet Rule} (hg : g.CaseBlind) (start : Rule)
    (hcs : '"' ∉ cs) : g.parse start (lowerOutside false cs) = (g.parse start cs).lowered := by
  rw [parse, parse, depthFor, depthFor, length_lowerOutside]
  exact call_caseBlind hg _ start (.ofText cs) .start hcs

theorem Pattern.scan_quotedIdentifier_of_not_mem (hcs : '"' ∉ cs) :
    quotedIdentifier.scan cs = none := by
  apply scan_seq_of_none
  apply scan_text_one_of_head
  intro hhead
  exact hcs (List.mem_of_head? hhead)

theorem not_mem_lowerOutside (hcs : '"' ∉ cs) (quoted : Bool) : '"' ∉ lowerOutside quoted cs := by
  induction cs generalizing quoted with
  | nil => exact hcs
  | cons c cs ih =>
    rw [List.mem_cons, not_or] at hcs
    by_cases hquote : c = '\''
    · rw [lowerOutside, if_pos hquote, List.mem_cons, not_or]
      exact ⟨hcs.1, ih hcs.2 _⟩
    · rw [lowerOutside, if_neg hquote, List.mem_cons, not_or]
      refine ⟨?_, ih hcs.2 _⟩
      cases quoted with
      | true => exact hcs.1
      | false =>
        intro heq
        exact hcs.1 ((toLower_eq_iff rfl).1 heq.symm).symm

theorem cql2_caseBlind : cql2.CaseBlind where
  token r p h cs hcs := by
    cases r with
    | stringLiteral =>
      cases h
      rw [Pattern.quotes_lowerOutside.respects_string cs]
      simp only [List.map_id]
      rfl
    | quotedIdentifier =>
      cases h
      rw [Pattern.scan_quotedIdentifier_of_not_mem hcs,
        Pattern.scan_quotedIdentifier_of_not_mem (not_mem_lowerOutside hcs false)]
      rfl
    | _ =>
      cases h <;> exact Pattern.respects_of_consists Pattern.rewrites_lowerOutside
        Pattern.spares_toLower (by decide) cs
  phrase r e h := by
    cases r <;> cases h <;> decide

end FeatureFilter.Grammar
