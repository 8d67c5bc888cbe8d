import FeatureFilter.Grammar.Phrase

namespace FeatureFilter.Grammar

open Text (Span)

variable {ρ : Type}

theorem Cursor.skipBlanks_eq {c : Cursor} (h : c.rest.dropWhile isBlank = c.rest) :
    c.skipBlanks = c := by
  have hsplit : c.rest.takeWhile isBlank ++ c.rest.dropWhile isBlank = c.rest :=
    List.takeWhile_append_dropWhile
  rw [h, List.append_left_eq_self] at hsplit
  rw [Cursor.skipBlanks, hsplit, h]
  rfl

theorem Cursor.skipBlanks_skipBlanks (c : Cursor) :
    c.skipBlanks.skipBlanks = c.skipBlanks := by
  apply Cursor.skipBlanks_eq
  show (c.rest.dropWhile isBlank).dropWhile isBlank = c.rest.dropWhile isBlank
  induction c.rest with
  | nil => rfl
  | cons b bs ih =>
    rw [List.dropWhile_cons]
    split
    · exact ih
    · rename_i hb
      rw [List.dropWhile_cons, if_neg hb]

/-- Something to be derived: a phrase, or the rest of a repetition behind what it has matched. -/
inductive Task (ρ : Type) where
  | phrase (e : Phrase ρ)
  | again (e : Phrase ρ)

/-- A failure, or the point behind a match and the trees of the rules in it. -/
abbrev Result (ρ : Type) := Option (Cursor × List (ParseTree ρ))

inductive Derives (g : RuleSet ρ) : Task ρ → Cursor → Result ρ → Prop
  | nothing : Derives g (.phrase .nothing) c (some (c, []))
  | endOfText : c.rest = [] → Derives g (.phrase .endOfText) c (some (c, []))
  | notEnd : c.rest ≠ [] → Derives g (.phrase .endOfText) c none
  | mark : Pattern.scan (.text ws) c.rest = some (taken, rest) →
    Derives g (.phrase (.mark ws)) c (some (c.moveTo taken rest, []))
  | noMark : Pattern.scan (.text ws) c.rest = none → Derives g (.phrase (.mark ws)) c none
  | token : g.define r = .token p → p.scan c.rest = some (taken, rest) →
    Derives g (.phrase (.rule r)) c (some (c.moveTo taken rest,
      [.token r (.between c.position (c.moveTo taken rest).position) taken]))
  | noToken : g.define r = .token p → p.scan c.rest = none → Derives g (.phrase (.rule r)) c none
  | node : g.define r = .phrase e → Derives g (.phrase e) c (some (d, ts)) →
    Derives g (.phrase (.rule r)) c (some (d, [.node r (.between c.position d.position) ts]))
  | noNode : g.define r = .phrase e → Derives g (.phrase e) c none →
    Derives g (.phrase (.rule r)) c none
  | seq : Derives g (.phrase x) c (some (d, ts)) →
    Derives g (.phrase y) d.skipBlanks (some (d', us)) →
    Derives g (.phrase (.seq x y)) c (some (d', ts ++ us))
  | seqLeft : Derives g (.phrase x) c none → Derives g (.phrase (.seq x y)) c none
  | seqRight : Derives g (.phrase x) c (some (d, ts)) → Derives g (.phrase y) d.skipBlanks none →
    Derives g (.phrase (.seq x y)) c none
  | choiceLeft : Derives g (.phrase x) c (some m) → Derives g (.phrase (.choice x y)) c (some m)
  | choiceRight : Derives g (.phrase x) c none → Derives g (.phrase y) c o →
    Derives g (.phrase (.choice x y)) c o
  | optional : Derives g (.phrase x) c (some m) → Derives g (.phrase (.optional x)) c (some m)
  | absent : Derives g (.phrase x) c none → Derives g (.phrase (.optional x)) c (some (c, []))
  | many : Derives g (.phrase x) c (some (d, ts)) → Derives g (.again x) d (some (d', us)) →
    Derives g (.phrase (.many x)) c (some (d', ts ++ us))
  | never : Derives g (.phrase x) c none → Derives g (.phrase (.many x)) c (some (c, []))
  | again : Derives g (.phrase x) c.skipBlanks (some (d, ts)) →
    Derives g (.again x) d (some (d', us)) → Derives g (.again x) c (some (d', ts ++ us))
  | done : Derives g (.phrase x) c.skipBlanks none → Derives g (.again x) c (some (c, []))

namespace Derives

variable {g : RuleSet ρ}

/-- A trial has one outcome. -/
theorem unique (h : Derives g t c o) (h' : Derives g t c o') : o = o' := by
  induction h generalizing o' with
  | nothing =>
    cases h'
    rfl
  | endOfText hc =>
    cases h' with
    | endOfText => rfl
    | notEnd hn => exact absurd hc hn
  | notEnd hn =>
    cases h' with
    | endOfText hc => exact absurd hc hn
    | notEnd => rfl
  | mark hs =>
    cases h' with
    | mark hs' =>
      cases hs.symm.trans hs'
      rfl
    | noMark hs' => cases hs.symm.trans hs'
  | noMark hs =>
    cases h' with
    | mark hs' => cases hs.symm.trans hs'
    | noMark => rfl
  | token hd hs =>
    cases h' with
    | token hd' hs' =>
      cases hd.symm.trans hd'
      cases hs.symm.trans hs'
      rfl
    | noToken hd' hs' =>
      cases hd.symm.trans hd'
      cases hs.symm.trans hs'
    | node hd' | noNode hd' => cases hd.symm.trans hd'
  | noToken hd hs =>
    cases h' with
    | token hd' hs' =>
      cases hd.symm.trans hd'
      cases hs.symm.trans hs'
    | noToken => rfl
    | node hd' | noNode hd' => cases hd.symm.trans hd'
  | node hd _ ih =>
    cases h' with
    | token hd' | noToken hd' => cases hd.symm.trans hd'
    | node hd' h' =>
      cases hd.symm.trans hd'
      cases ih h'
      rfl
    | noNode hd' h' =>
      cases hd.symm.trans hd'
      cases ih h'
  | noNode hd _ ih =>
    cases h' with
    | token hd' | noToken hd' => cases hd.symm.trans hd'
    | node hd' h' =>
      cases hd.symm.trans hd'
      cases ih h'
    | noNode => rfl
  | seq _ _ ihx ihy =>
    cases h' with
    | seq hx hy =>
      cases ihx hx
      cases ihy hy
      rfl
    | seqLeft hx => cases ihx hx
    | seqRight hx hy =>
      cases ihx hx
      cases ihy hy
  | seqLeft _ ihx =>
    cases h' with
    | seq hx | seqRight hx => cases ihx hx
    | seqLeft => rfl
  | seqRight _ _ ihx ihy =>
    cases h' with
    | seq hx hy =>
      cases ihx hx
      cases ihy hy
    | seqLeft hx => cases ihx hx
    | seqRight => rfl
  | choiceLeft _ ih =>
    cases h' with
    | choiceLeft hx => exact ih hx
    | choiceRight hx => cases ih hx
  | choiceRight _ _ ihx ihy =>
    cases h' with
    | choiceLeft hx => cases ihx hx
    | choiceRight _ hy => exact ihy hy
  | optional _ ih =>
    cases h' with
    | optional hx => exact ih hx
    | absent hx => cases ih hx
  | absent _ ih =>
    cases h' with
    | optional hx => cases ih hx
    | absent => rfl
  | many _ _ ihx ihm =>
    cases h' with
    | many hx hm =>
      cases ihx hx
      cases ihm hm
      rfl
    | never hx => cases ihx hx
  | never _ ih =>
    cases h' with
    | many hx => cases ih hx
    | never => rfl
  | again _ _ ihx ihm =>
    cases h' with
    | again hx hm =>
      cases ihx hx
      cases ihm hm
      rfl
    | done hx => cases ihx hx
  | done _ ih =>
    cases h' with
    | again hx => cases ih hx
    | done => rfl

theorem exists_tree (h : Derives g (.phrase (.rule r)) c (some (d, ts))) :
    ∃ t, ts = [t] := by
  cases h with
  | token | node => exact ⟨_, rfl⟩

theorem exists_token (hd : g.define r = .token p)
    (h : Derives g (.phrase (.rule r)) c (some (d, ts))) :
    ∃ lexeme, p.scan c.rest = some (lexeme, d.rest) ∧
      ts = [.token r (.between c.position d.position) lexeme] := by
  cases h with
  | token hd' hs =>
    cases hd.symm.trans hd'
    exact ⟨_, hs, rfl⟩
  | node hd' => cases hd.symm.trans hd'

theorem exists_node (hd : g.define r = .phrase e)
    (h : Derives g (.phrase (.rule r)) c (some (d, ts))) :
    ∃ us, Derives g (.phrase e) c (some (d, us)) ∧
      ts = [.node r (.between c.position d.position) us] := by
  cases h with
  | token hd' => cases hd.symm.trans hd'
  | node hd' hbody =>
    cases hd.symm.trans hd'
    exact ⟨_, hbody, rfl⟩

theorem exists_seq (h : Derives g (.phrase (.seq x y)) c (some (d, ts))) :
    ∃ mid us vs, Derives g (.phrase x) c (some (mid, us)) ∧
      Derives g (.phrase y) mid.skipBlanks (some (d, vs)) ∧ ts = us ++ vs := by
  cases h with
  | seq hx hy => exact ⟨_, _, _, hx, hy, rfl⟩

end Derives

mutual

/-- Whether a phrase is seen to fail, by the rules that are known to fail. -/
def Phrase.misses (fails : ρ → Bool) : Phrase ρ → Bool
  | .rule r => fails r
  | .seq x y => x.misses fails || x.idles fails && y.misses fails
  | .choice x y => x.misses fails && y.misses fails
  | .nothing | .endOfText | .mark _ | .optional _ | .many _ => false

def Phrase.idles (fails : ρ → Bool) : Phrase ρ → Bool
  | .nothing => true
  | .optional x | .many x => x.misses fails
  | .endOfText | .mark _ | .rule _ | .seq .. | .choice .. => false

end

/-- Whether a rule is seen to fail on a text within the given number of rules inside each other. -/
def RuleSet.misses (g : RuleSet ρ) : Nat → List Char → ρ → Bool
  | 0, _, _ => false
  | n + 1, cs, r =>
    match g.define r with
    | .token p => (p.scan cs).isNone
    | .phrase e => e.misses (g.misses n cs)

variable {g : RuleSet ρ}

theorem Phrase.derives_of_misses (hc : c.skipBlanks = c)
    (h : ∀ r, fails r = true → Derives g (.phrase (.rule r)) c none) (e : Phrase ρ) :
    (e.misses fails = true → Derives g (.phrase e) c none) ∧
      (e.idles fails = true → Derives g (.phrase e) c (some (c, []))) := by
  induction e with
  | nothing => exact ⟨nofun, fun _ => .nothing⟩
  | endOfText | mark => exact ⟨nofun, nofun⟩
  | rule r => exact ⟨h r, nofun⟩
  | seq x y ihx ihy =>
    refine ⟨fun he => ?_, nofun⟩
    rcases Bool.or_eq_true_iff.1 he with hx | hxy
    · exact .seqLeft (ihx.1 hx)
    · obtain ⟨hx, hy⟩ := Bool.and_eq_true_iff.1 hxy
      refine .seqRight (ihx.2 hx) ?_
      rw [hc]
      exact ihy.1 hy
  | choice x y ihx ihy =>
    refine ⟨fun he => ?_, nofun⟩
    obtain ⟨hx, hy⟩ := Bool.and_eq_true_iff.1 he
    exact .choiceRight (ihx.1 hx) (ihy.1 hy)
  | optional x ih => exact ⟨nofun, fun he => .absent (ih.1 he)⟩
  | many x ih => exact ⟨nofun, fun he => .never (ih.1 he)⟩

theorem RuleSet.derives_of_misses (hc : c.skipBlanks = c) (h : g.misses n c.rest r = true) :
    Derives g (.phrase (.rule r)) c none := by
  induction n generalizing r with
  | zero => cases h
  | succ n ih =>
    rw [RuleSet.misses] at h
    split at h
    · rename_i hd
      exact .noToken hd (Option.isNone_iff_eq_none.1 h)
    · rename_i e hd
      exact .noNode hd ((e.derives_of_misses hc fun r => ih).1 h)

theorem RuleSet.derives_of_front (rules : List ρ) (hc : c.rest = b :: cs) (hb : isBlank b = false)
    (h : rules.all (g.misses n (b :: cs)) = true) :
    ∀ r ∈ rules, Derives g (.phrase (.rule r)) c none := by
  intro r hr
  have hblank : c.skipBlanks = c := by
    apply Cursor.skipBlanks_eq
    rw [hc, List.dropWhile_cons_of_neg (Bool.eq_false_iff.1 hb)]
  apply derives_of_misses (n := n) hblank
  rw [hc]
  exact List.all_eq_true.1 h r hr

end FeatureFilter.Grammar
