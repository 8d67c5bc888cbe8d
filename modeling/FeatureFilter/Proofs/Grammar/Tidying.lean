import FeatureFilter.Proofs.Grammar.Cql2
import FeatureFilter.Proofs.Grammar.Rewriting

namespace FeatureFilter.Grammar

/-- One space for each run of blanks outside quotes, and none for a run at the end. The first
argument is the quote that is open. -/
def tidyFrom : Option Char → List Char → List Char
  | _, [] => []
  | some q, c :: cs => c :: tidyFrom (if c = q then none else some q) cs
  | none, c :: cs =>
    if isBlank c then if cs.head?.all isBlank then tidyFrom none cs else ' ' :: tidyFrom none cs
    else c :: tidyFrom (if c = '\'' ∨ c = '"' then some c else none) cs

/-- The text without blanks at either end, and with one space for each run of blanks in it that is
not in quotes. -/
def tidy (cs : List Char) : List Char := tidyFrom none (cs.dropWhile isBlank)

example : tidy " \tname =\r\n  'two  spaces' ".toList = "name = 'two  spaces'".toList := by decide

/-- The characters that tokens without quotes consist of. -/
def isSolid (c : Char) : Bool := !isBlank c && c != '\'' && c != '"'

theorem isSolid_iff (c : Char) :
    isSolid c = true ↔ isBlank c = false ∧ c ≠ '\'' ∧ c ≠ '"' := by
  simp only [isSolid, Bool.and_eq_true, Bool.not_eq_eq_eq_not, Bool.not_true, bne_iff_ne,
    and_assoc]

theorem isBlank_quote (hq : q = '\'' ∨ q = '"') : isBlank q = false := by
  rcases hq with rfl | rfl
  · rfl
  · rfl

theorem tidyFrom_blank (hc : isBlank c = true) (cs : List Char) :
    (cs.head?.all isBlank = true ∧ tidyFrom none (c :: cs) = tidyFrom none cs) ∨
      (cs.head?.all isBlank = false ∧ tidyFrom none (c :: cs) = ' ' :: tidyFrom none cs) := by
  rw [tidyFrom, if_pos hc]
  cases hcs : cs.head?.all isBlank with
  | true => exact .inl ⟨rfl, if_pos rfl⟩
  | false => exact .inr ⟨rfl, if_neg Bool.false_ne_true⟩

theorem tidyFrom_other (hc : isBlank c = false) (cs : List Char) :
    tidyFrom none (c :: cs) = c :: tidyFrom (if c = '\'' ∨ c = '"' then some c else none) cs := by
  rw [tidyFrom, if_neg (Bool.eq_false_iff.1 hc)]

theorem tidyFrom_solid (hc : isSolid c = true) (cs : List Char) :
    tidyFrom none (c :: cs) = c :: tidyFrom none cs := by
  obtain ⟨hblank, hsingle, hdouble⟩ := (isSolid_iff c).1 hc
  rw [tidyFrom_other hblank, if_neg (not_or.2 ⟨hsingle, hdouble⟩)]

theorem tidyFrom_quote (hq : q = '\'' ∨ q = '"') (cs : List Char) :
    tidyFrom none (q :: cs) = q :: tidyFrom (some q) cs := by
  rw [tidyFrom_other (isBlank_quote hq), if_pos hq]

theorem eq_space_of_head?_tidyFrom (hc : isBlank c = true)
    (hd : d ∈ (tidyFrom none (c :: cs)).head?) : d = ' ' := by
  induction cs generalizing c with
  | nil =>
    rcases tidyFrom_blank hc [] with ⟨_, h⟩ | ⟨hnil, _⟩
    · rw [h] at hd
      cases hd
    · cases hnil
  | cons b cs ih =>
    rcases tidyFrom_blank hc (b :: cs) with ⟨hb, h⟩ | ⟨_, h⟩
    · rw [h] at hd
      exact ih hb hd
    · rw [h] at hd
      exact (Option.some.inj hd).symm

/-- The blanks in front of a tidied text are those in front of the text, if any. -/
theorem tidyFrom_dropWhile (cs : List Char) :
    tidyFrom none (cs.dropWhile isBlank) = (tidyFrom none cs).dropWhile isBlank := by
  induction cs with
  | nil => rfl
  | cons c cs ih =>
    cases hc : isBlank c with
    | true =>
      rw [List.dropWhile_cons_of_pos hc, ih]
      rcases tidyFrom_blank hc cs with ⟨_, h⟩ | ⟨_, h⟩
      · rw [h]
      · rw [h, List.dropWhile_cons_of_pos rfl]
    | false =>
      have hc' : ¬isBlank c = true := Bool.eq_false_iff.1 hc
      rw [List.dropWhile_cons_of_neg hc', tidyFrom_other hc, List.dropWhile_cons_of_neg hc']

theorem dropWhile_eq_nil_of_tidyFrom {cs : List Char}
    (h : tidyFrom none (cs.dropWhile isBlank) = []) :
    cs.dropWhile isBlank = [] := by
  induction cs with
  | nil => rfl
  | cons c cs ih =>
    cases hc : isBlank c with
    | true =>
      rw [List.dropWhile_cons_of_pos hc] at h ⊢
      exact ih h
    | false =>
      rw [List.dropWhile_cons_of_neg (Bool.eq_false_iff.1 hc), tidyFrom_other hc] at h
      cases h

theorem eq_of_not_isSolid (hc : isSolid c = false) :
    c = ' ' ∨ c = '\t' ∨ c = '\r' ∨ c = '\n' ∨ c = '\'' ∨ c = '"' := by
  simpa only [isSolid, isBlank, Bool.and_eq_false_iff, Bool.not_eq_eq_eq_not, Bool.not_false,
    Bool.or_eq_true, beq_iff_eq, bne_eq_false_iff_eq, or_assoc] using hc

theorem toLower_of_not_isSolid (hc : isSolid c = false) : c.toLower = c := by
  obtain rfl | rfl | rfl | rfl | rfl | rfl := eq_of_not_isSolid hc <;> rfl

namespace Pattern

theorem rewrites_tidyFrom : Rewrites (tidyFrom none) id isSolid where
  nil := rfl
  cons cs hc := tidyFrom_solid hc cs
  stop := by
    intro c cs hc d hd
    cases hblank : isBlank c with
    | true =>
      rw [eq_space_of_head?_tidyFrom hblank hd]
      rfl
    | false =>
      rw [tidyFrom_other hblank] at hd
      cases hd
      exact hc

theorem isSolid_of_has (cls : CharClass) (hcls : cls ≠ .any) (h : cls.has c = true) :
    isSolid c = true := by
  cases hc : isSolid c with
  | true => rfl
  | false =>
    cases cls with
    | any => exact absurd rfl hcls
    | digit | letter =>
      obtain rfl | rfl | rfl | rfl | rfl | rfl := eq_of_not_isSolid hc <;> cases h

theorem spares_solid : Spares id isSolid isSolid isSolid where
  sharp := by
    intro w hw c
    refine ⟨?_, fun _ => rfl⟩
    intro heq
    rw [← eq_of_beq heq]
    exact hw
  folded := by
    intro w hw c
    refine ⟨?_, fun _ => rfl⟩
    intro heq
    cases hc : isSolid c with
    | true => rfl
    | false =>
      rw [eq_of_beq heq, toLower_of_not_isSolid hc, hc] at hw
      cases hw
  digit _ := ⟨isSolid_of_has .digit (by decide), fun _ => rfl⟩
  letter _ := ⟨isSolid_of_has .letter (by decide), fun _ => rfl⟩

theorem quotes_tidyFrom (hq : q = '\'' ∨ q = '"') :
    Quotes (tidyFrom none) (tidyFrom (some q)) q where
  front := by
    intro cs h
    cases cs with
    | nil => cases h
    | cons c cs =>
      cases hblank : isBlank c with
      | true =>
        have hspace := eq_space_of_head?_tidyFrom hblank h
        rw [hspace] at hq
        rcases hq with hq | hq
        · cases hq
        · cases hq
      | false =>
        rw [tidyFrom_other hblank] at h
        exact h
  opens := tidyFrom_quote hq
  closes cs := by rw [tidyFrom, if_pos rfl]
  within cs hc := by rw [tidyFrom, if_neg hc]
  nil := rfl

end Pattern

/-- Whether a phrase consists of solid marks and rules of a kind, and does not ask for the end. -/
def Phrase.solid (inner : ρ → Bool) : Phrase ρ → Bool
  | .nothing => true
  | .endOfText => false
  | .mark ws => ws.all isSolid
  | .rule r => inner r
  | .seq x y | .choice x y => x.solid inner && y.solid inner
  | .optional x | .many x => x.solid inner

def Task.solid (inner : ρ → Bool) : Task ρ → Bool
  | .phrase e | .again e => e.solid inner

/-- The tokens of the rules in `inner` take the same of a tidied text, and their phrases are made
of such rules. -/
structure RuleSet.Spaced (g : RuleSet ρ) (inner : ρ → Bool) : Prop where
  token : ∀ r p, inner r = true → g.define r = .token p → p.Respects (tidyFrom none) id
  phrase : ∀ r e, inner r = true → g.define r = .phrase e → e.solid inner = true

theorem simulates_spaced {g : RuleSet ρ} {inner : ρ → Bool} (hg : g.Spaced inner) :
    g.Simulates (fun t _ => t.solid inner = true) (tidyFrom none) where
  noEnd := by
    intro c h
    cases h
  node h hd := hg.phrase _ _ h hd
  seq := by
    intro x y c h
    obtain ⟨hx, hy⟩ := Bool.and_eq_true_iff.1 h
    exact ⟨hx, fun _ _ _ => hy⟩
  choice h := Bool.and_eq_true_iff.1 h
  optional h := h
  many h := ⟨h, fun _ _ _ => h⟩
  again h := ⟨h, fun _ _ _ => h⟩
  blanks := tidyFrom_dropWhile
  mark := by
    intro ws c h
    have hscan := Pattern.respects_of_consists Pattern.rewrites_tidyFrom Pattern.spares_solid
      (p := .text ws) h c.rest
    simpa only [List.map_id] using hscan
  token := by
    intro r p c h hd
    have hscan := hg.token r p h hd c.rest
    simpa only [List.map_id] using hscan

theorem cql2_spaced : cql2.Spaced Rule.isInner where
  token r p hr h := by
    cases r with
    | stringLiteral =>
      cases h
      exact (Pattern.quotes_tidyFrom (.inl rfl)).respects_string
    | quotedIdentifier =>
      cases h
      exact (Pattern.quotes_tidyFrom (.inr rfl)).respects_quotedIdentifier
    | _ =>
      cases h <;> exact Pattern.respects_of_consists Pattern.rewrites_tidyFrom
        Pattern.spares_solid (by decide)
  phrase r e hr h := by
    cases r with
    | filter | endOfText => cases hr
    | _ => cases h <;> decide

end FeatureFilter.Grammar
