import FeatureFilter.Proofs.Grammar.Brackets
import FeatureFilter.Proofs.Grammar.Runs

namespace FeatureFilter.Grammar

open ParseTree (Within)

variable {ρ : Type} {g : RuleSet ρ} {inner : ρ → Bool}

theorem Derives.leads (h : Derives g t c o) : ∀ d ts, o = some (d, ts) → c.Leads d := by
  induction h with
  | nothing | endOfText | absent | never | done =>
    intro d ts ho
    cases ho
    exact .refl _
  | mark hs | token _ hs =>
    intro d ts ho
    cases ho
    exact .moveTo (Pattern.append_of_scan hs)
  | node _ _ ih =>
    intro d ts ho
    cases ho
    exact ih _ _ rfl
  | seq _ _ ihx ihy =>
    intro d ts ho
    cases ho
    exact (ihx _ _ rfl).trans ((Cursor.Leads.skipBlanks _).trans (ihy _ _ rfl))
  | choiceLeft _ ih | choiceRight _ _ _ ih | optional _ ih => exact ih
  | many _ _ ihx ihm =>
    intro d ts ho
    cases ho
    exact (ihx _ _ rfl).trans (ihm _ _ rfl)
  | again _ _ ihx ihm =>
    intro d ts ho
    cases ho
    exact (Cursor.Leads.skipBlanks _).trans ((ihx _ _ rfl).trans (ihm _ _ rfl))
  | notEnd | noMark | noToken | noNode | seqLeft | seqRight =>
    intro d ts ho
    cases ho

/-- From one point to another, over a text that closes the quotes that it opens. -/
def Passes (c d : Cursor) : Prop :=
  ∃ w, w ++ d.rest = c.rest ∧ d.position = c.position.after w ∧
    (Level.after ⟨none, 0⟩ w).quote = none

namespace Passes

theorem refl (c : Cursor) : Passes c c := ⟨[], rfl, rfl, rfl⟩

theorem of_reads (h : Reads n m c d) (hl : c.Leads d) : Passes c d := by
  obtain ⟨w, happ, hlevel⟩ := h
  obtain ⟨w', happ', hpos⟩ := hl
  cases List.append_cancel_right (happ.trans happ'.symm)
  have hshallow := Level.after_add hlevel (-n)
  rw [Int.add_right_neg] at hshallow
  exact ⟨w, happ, hpos, by rw [hshallow]⟩

theorem trans (h : Passes c d) (h' : Passes d d') : Passes c d' := by
  obtain ⟨w, happ, hpos, hquote⟩ := h
  obtain ⟨w', happ', hpos', hquote'⟩ := h'
  refine ⟨w ++ w', ?_, ?_, ?_⟩
  · rw [List.append_assoc, happ', happ]
  · rw [after_append, ← hpos, hpos']
  · cases hlevel : Level.after ⟨none, 0⟩ w with
    | mk q k =>
      rw [hlevel] at hquote
      cases hquote
      have hdeep := Level.after_deeper none 0 k w'
      rw [Int.zero_add] at hdeep
      rw [Level.after_append, hlevel, hdeep]
      exact hquote'

theorem skipBlanks (c : Cursor) : Passes c c.skipBlanks :=
  .of_reads (.skipBlanks 0 c) (.skipBlanks c)

end Passes

def Cursor.Holds (g : RuleSet ρ) (c d : Cursor) (t : ParseTree ρ) : Prop :=
  ∃ r a b, c.Leads a ∧ b.Leads d ∧ Derives g (.phrase (.rule r)) a (some (b, [t]))

theorem Cursor.Holds.mono (h : Cursor.Holds g c d t) (hc : c'.Leads c) (hd : d.Leads d') :
    Cursor.Holds g c' d' t := by
  obtain ⟨r, a, b, ha, hb, hr⟩ := h
  exact ⟨r, a, b, hc.trans ha, hb.trans hd, hr⟩

/-- The trees of a phrase stand in the stretch that the phrase takes. -/
theorem Derives.holds (h : Derives g t c o) :
    ∀ d ts, o = some (d, ts) → ∀ u ∈ ts, Cursor.Holds g c d u := by
  induction h with
  | nothing | endOfText | mark | absent | never | done =>
    intro d ts ho u hu
    cases ho
    cases hu
  | token hd hs =>
    intro d ts ho u hu
    cases ho
    cases List.mem_singleton.1 hu
    exact ⟨_, _, _, .refl _, .refl _, .token hd hs⟩
  | node hd he =>
    intro d ts ho u hu
    cases ho
    cases List.mem_singleton.1 hu
    exact ⟨_, _, _, .refl _, .refl _, .node hd he⟩
  | seq hx hy ihx ihy =>
    intro d ts ho u hu
    cases ho
    have hleft := hx.leads _ _ rfl
    have hright := (Cursor.Leads.skipBlanks _).trans (hy.leads _ _ rfl)
    rcases List.mem_append.1 hu with hu | hu
    · exact (ihx _ _ rfl u hu).mono (.refl _) hright
    · exact (ihy _ _ rfl u hu).mono (hleft.trans (.skipBlanks _)) (.refl _)
  | choiceLeft _ ih | choiceRight _ _ _ ih | optional _ ih => exact ih
  | many hx hm ihx ihm =>
    intro d ts ho u hu
    cases ho
    rcases List.mem_append.1 hu with hu | hu
    · exact (ihx _ _ rfl u hu).mono (.refl _) (hm.leads _ _ rfl)
    · exact (ihm _ _ rfl u hu).mono (hx.leads _ _ rfl) (.refl _)
  | again hx hm ihx ihm =>
    intro d ts ho u hu
    cases ho
    rcases List.mem_append.1 hu with hu | hu
    · exact (ihx _ _ rfl u hu).mono (.skipBlanks _) (hm.leads _ _ rfl)
    · exact (ihm _ _ rfl u hu).mono ((Cursor.Leads.skipBlanks _).trans (hx.leads _ _ rfl)) (.refl _)
  | notEnd | noMark | noToken | noNode | seqLeft | seqRight =>
    intro d ts ho
    cases ho

theorem Derives.holds_children (h : Derives g (.phrase (.rule r)) c (some (d, [t]))) :
    ∀ u ∈ t.children, Cursor.Holds g c d u := by
  cases h with
  | token => exact fun _ hu => absurd hu List.not_mem_nil
  | node hd he => exact he.holds _ _ rfl

theorem Cursor.Holds.children (h : Cursor.Holds g c d t) :
    ∀ u ∈ t.children, Cursor.Holds g c d u := by
  obtain ⟨r, a, b, ha, hb, hr⟩ := h
  exact fun u hu => (hr.holds_children u hu).mono ha hb

end FeatureFilter.Grammar
