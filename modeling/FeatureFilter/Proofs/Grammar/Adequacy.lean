import FeatureFilter.Proofs.Grammar.Derivation
import FeatureFilter.Proofs.Grammar.Scanning

namespace FeatureFilter.Grammar

variable {ρ : Type}

theorem Cursor.length_skipBlanks (c : Cursor) : c.skipBlanks.rest.length ≤ c.rest.length :=
  (List.dropWhile_suffix isBlank).length_le

namespace Phrase

def nullable (empty : ρ → Bool) : Phrase ρ → Bool
  | .nothing | .endOfText | .optional _ | .many _ => true
  | .mark cs => cs.isEmpty
  | .rule r => empty r
  | .seq x y => x.nullable empty && y.nullable empty
  | .choice x y => x.nullable empty || y.nullable empty

/-- The rules that may be tried where a phrase starts. -/
def leads (empty : ρ → Bool) : Phrase ρ → List ρ
  | .nothing | .endOfText | .mark _ => []
  | .rule r => [r]
  | .seq x y => x.leads empty ++ if x.nullable empty then y.leads empty else []
  | .choice x y => x.leads empty ++ y.leads empty
  | .optional x | .many x => x.leads empty

def progressive (empty : ρ → Bool) : Phrase ρ → Bool
  | .nothing | .endOfText | .mark _ | .rule _ => true
  | .seq x y | .choice x y => x.progressive empty && y.progressive empty
  | .optional x => x.progressive empty
  | .many x => x.progressive empty && !x.nullable empty

end Phrase

def Task.nullable (empty : ρ → Bool) : Task ρ → Bool
  | .phrase e => e.nullable empty
  | .again _ => true

/-- A rank for each rule that goes down from a rule to those that it tries where it starts, and
whether a rule may match nothing. -/
structure RuleSet.Ranked (g : RuleSet ρ) (empty : ρ → Bool) (rank : ρ → Nat) : Prop where
  rank_le : ∀ r, rank r ≤ g.size
  token : ∀ r p, g.define r = .token p → empty r = false → p.nullable = false
  phrase : ∀ r e, g.define r = .phrase e →
    (empty r = false → e.nullable empty = false) ∧ e.progressive empty = true ∧
      ∀ s ∈ e.leads empty, rank s < rank r

/-- How far a match goes: never back, and forward unless the task may match nothing. -/
def Advances (c d : Cursor) (nullable : Bool) : Prop :=
  d.rest.length ≤ c.rest.length ∧ (nullable = false → d.rest.length < c.rest.length)

theorem Advances.refl (c : Cursor) : Advances c c true := ⟨Nat.le_refl _, nofun⟩

theorem advances_of_scan {p : Pattern} {c : Cursor} (h : p.scan c.rest = some (taken, rest))
    (hb : b = false → p.nullable = false) : Advances c (c.moveTo taken rest) b :=
  ⟨Pattern.length_le_of_scan h, fun hf => Pattern.length_lt_of_scan (hb hf) h⟩

theorem Advances.trans (h : Advances c d b) (h' : Advances d.skipBlanks d' b') :
    Advances c d' (b && b') := by
  have hs := d.length_skipBlanks
  refine ⟨by have h₁ := h.1; have h₂ := h'.1; omega, fun hb => ?_⟩
  rcases Bool.and_eq_false_iff.1 hb with hb | hb
  · have h₁ := h.2 hb
    have h₂ := h'.1
    omega
  · have h₁ := h.1
    have h₂ := h'.2 hb
    omega

theorem Advances.weaken (h : Advances c d b) (hb : b' = false → b = false) : Advances c d b' :=
  ⟨h.1, fun hf => h.2 (hb hf)⟩

variable {g : RuleSet ρ} {empty : ρ → Bool} {rank : ρ → Nat}

theorem Derives.advances (hg : g.Ranked empty rank) (h : Derives g t c o) :
    ∀ d ts, o = some (d, ts) → Advances c d (t.nullable empty) := by
  induction h with
  | nothing | endOfText | absent | never | done =>
    rintro d ts ⟨⟩
    exact .refl _
  | mark hs =>
    rintro d ts ⟨⟩
    exact advances_of_scan hs id
  | token hd hs =>
    rintro d ts ⟨⟩
    exact advances_of_scan hs (hg.token _ _ hd)
  | node hd _ ih =>
    rintro d ts ⟨⟩
    exact (ih _ _ rfl).weaken (hg.phrase _ _ hd).1
  | seq _ _ ihx ihy =>
    rintro d ts ⟨⟩
    exact (ihx _ _ rfl).trans (ihy _ _ rfl)
  | choiceLeft _ ih =>
    rintro d ts ⟨⟩
    exact (ih _ _ rfl).weaken fun hb => (Bool.or_eq_false_iff.1 hb).1
  | choiceRight _ _ _ ih =>
    rintro d ts rfl
    exact (ih _ _ rfl).weaken fun hb => (Bool.or_eq_false_iff.1 hb).2
  | optional _ ih =>
    rintro d ts ⟨⟩
    exact (ih _ _ rfl).weaken nofun
  | many _ _ ihx ihm =>
    rintro d ts ⟨⟩
    exact ⟨Nat.le_trans (ihm _ _ rfl).1 (ihx _ _ rfl).1, nofun⟩
  | again _ _ ihx ihm =>
    rintro d ts ⟨⟩
    have hx := Nat.le_trans (ihx _ _ rfl).1 (Cursor.length_skipBlanks _)
    exact ⟨Nat.le_trans (ihm _ _ rfl).1 hx, nofun⟩
  | notEnd | noMark | noToken | noNode | seqLeft | seqRight => nofun

/-- A step comes to what a task derives, on texts up to some length. -/
def Step.Follows (step : Step ρ) (g : RuleSet ρ) (t : Task ρ) (bound : Nat) : Prop :=
  ∀ c a, c.rest.length ≤ bound → Derives g t c (step c a).result

theorem Step.Follows.mono {step : Step ρ} (h : step.Follows g t bound) (hb : bound' ≤ bound) :
    step.Follows g t bound' := fun c a hc => h c a (Nat.le_trans hc hb)

theorem runMany_follows {step : Step ρ} (hg : g.Ranked empty rank)
    (hx : x.nullable empty = false) (h : step.Follows g (.phrase x) bound) (hn : bound < n) :
    Step.Follows (runMany step n) g (.again x) bound := by
  -- Each round takes something, so the text gets shorter with the rounds that are left.
  induction n generalizing bound with
  | zero => omega
  | succ n ih =>
    intro c a hc
    have hstep := h c.skipBlanks a (Nat.le_trans c.length_skipBlanks hc)
    rw [runMany]
    cases hr : step c.skipBlanks a with
    | mk b result =>
      rw [hr] at hstep
      cases result with
      | none => exact .done hstep
      | some m =>
        obtain ⟨d, ts⟩ := m
        have hlt := (hstep.advances hg d ts rfl).2 hx
        have hle := c.length_skipBlanks
        have hmore := ih (h.mono (by omega)) (show d.rest.length < n by omega) d b (Nat.le_refl _)
        simp only
        cases hr' : runMany step n d b with
        | mk b' result' =>
          rw [hr'] at hmore
          cases result' with
          | none => cases hmore
          | some m' => exact .again hstep hmore

/-- A phrase, if that is so of the rules that it may try where it starts, and on shorter texts of
all rules. -/
theorem Phrase.run_follows {call : ρ → Step ρ} (hg : g.Ranked empty rank) (e : Phrase ρ)
    (he : e.progressive empty = true)
    (hlead : ∀ r ∈ e.leads empty, (call r).Follows g (.phrase (.rule r)) bound)
    (hany : ∀ n < bound, ∀ r, (call r).Follows g (.phrase (.rule r)) n) :
    Step.Follows (e.run call) g (.phrase e) bound := by
  induction e generalizing bound with
  | nothing => exact fun c a _ => .nothing
  | endOfText =>
    intro c a _
    simp only [run]
    split
    · rename_i hc
      exact .endOfText (List.isEmpty_iff.1 hc)
    · rename_i hc
      exact .notEnd (mt List.isEmpty_iff.2 hc)
  | mark ws =>
    intro c a _
    simp only [run]
    split
    · rename_i hs
      exact .noMark hs
    · rename_i hs
      exact .mark hs
  | rule r => exact hlead r List.mem_cons_self
  | seq x y ihx ihy =>
    obtain ⟨hpx, hpy⟩ := Bool.and_eq_true_iff.1 he
    intro c a hc
    have hx := ihx hpx (fun r hr => hlead r (List.mem_append_left _ hr)) hany c a hc
    -- The second part starts where the first did, and then leads on to its rules, or behind it.
    have hy : ∀ d ts b, (x.run call c a).result = some (d, ts) →
        Derives g (.phrase y) d.skipBlanks (y.run call d.skipBlanks b).result := by
      intro d ts b hd
      obtain ⟨hle, hlt⟩ := hx.advances hg d ts hd
      have hs := d.length_skipBlanks
      cases hn : x.nullable empty with
      | true =>
        refine ihy hpy (fun r hr => hlead r ?_) hany d.skipBlanks b (by omega)
        rw [leads, hn]
        exact List.mem_append_right _ hr
      | false =>
        have hlt := hlt hn
        exact (ihy hpy (fun r _ => hany _ (by omega) r) fun n hn r => hany n (by omega) r)
          d.skipBlanks b (Nat.le_refl _)
    rw [run]
    cases hr : x.run call c a with
    | mk b result =>
      rw [hr] at hx
      cases result with
      | none => exact .seqLeft hx
      | some m =>
        obtain ⟨d, ts⟩ := m
        have hy := hy d ts b (by rw [hr])
        simp only
        cases hr' : y.run call d.skipBlanks b with
        | mk b' result' =>
          rw [hr'] at hy
          cases result' with
          | none => exact .seqRight hx hy
          | some m' => exact .seq hx hy
  | choice x y ihx ihy =>
    obtain ⟨hpx, hpy⟩ := Bool.and_eq_true_iff.1 he
    intro c a hc
    have hx := ihx hpx (fun r hr => hlead r (List.mem_append_left _ hr)) hany c a hc
    rw [run]
    cases hr : x.run call c a with
    | mk b result =>
      rw [hr] at hx
      cases result with
      | none =>
        have hy := ihy hpy (fun r hr => hlead r (List.mem_append_right _ hr)) hany c b hc
        exact .choiceRight hx hy
      | some m => exact .choiceLeft hx
  | optional x ih =>
    intro c a hc
    have hx := ih he hlead hany c a hc
    rw [run]
    cases hr : x.run call c a with
    | mk b result =>
      rw [hr] at hx
      cases result with
      | none => exact .absent hx
      | some m => exact .optional hx
  | many x ih =>
    obtain ⟨hpx, hnx⟩ := Bool.and_eq_true_iff.1 he
    have hnx : x.nullable empty = false := Bool.not_eq_eq_eq_not.1 hnx
    intro c a hc
    have hx := ih hpx hlead hany c a hc
    rw [run]
    cases hr : x.run call c a with
    | mk b result =>
      rw [hr] at hx
      cases result with
      | none => exact .never hx
      | some m =>
        obtain ⟨d, ts⟩ := m
        have hlt := (hx.advances hg d ts rfl).2 hnx
        have hshort : Step.Follows (x.run call) g (.phrase x) d.rest.length :=
          ih hpx (fun r _ => hany _ (by omega) r) fun n hn r => hany n (by omega) r
        have hmore := runMany_follows hg hnx hshort (Nat.lt_succ_self _) d b (Nat.le_refl _)
        simp only
        cases hr' : runMany (x.run call) (d.rest.length + 1) d b with
        | mk b' result' =>
          rw [hr'] at hmore
          cases result' with
          | none => cases hmore
          | some m' => exact .many hx hmore

theorem RuleSet.call_follows (hg : g.Ranked empty rank)
    (hn : bound * (g.size + 1) + rank r + 1 ≤ n) :
    Step.Follows (g.call n r) g (.phrase (.rule r)) bound := by
  induction n generalizing bound r with
  | zero => omega
  | succ n ih =>
    intro c a hc
    rw [RuleSet.call]
    cases hd : g.define r with
    | token p =>
      simp only
      cases hs : p.scan c.rest with
      | none => exact .noToken hd hs
      | some m => exact .token hd hs
    | phrase e =>
      obtain ⟨-, hpe, hrank⟩ := hg.phrase r e hd
      have hlead : ∀ s ∈ e.leads empty, (g.call n s).Follows g (.phrase (.rule s)) bound := by
        intro s hs
        have hlt := hrank s hs
        exact ih (by omega)
      have hany : ∀ m < bound, ∀ s, (g.call n s).Follows g (.phrase (.rule s)) m := by
        intro m hm s
        -- A shorter text leaves room for all ranks.
        have hs := hg.rank_le s
        have hmul := Nat.mul_le_mul_right (g.size + 1) (Nat.succ_le_of_lt hm)
        rw [Nat.succ_mul] at hmul
        exact ih (by omega)
      have he := e.run_follows hg hpe hlead hany c a hc
      simp only
      cases hr : e.run (g.call n) c a with
      | mk b result =>
        rw [hr] at he
        cases result with
        | none => exact .noNode hd he
        | some m => exact .node hd he

/-- Every trial of a rule comes to an end. -/
theorem RuleSet.exists_derives (hg : g.Ranked empty rank) (r : ρ) (c : Cursor) :
    ∃ o, Derives g (.phrase (.rule r)) c o :=
  ⟨_, RuleSet.call_follows hg (Nat.le_refl _) c ⟨c.position, []⟩ (Nat.le_refl _)⟩

/-- A parse comes to what its rule derives from the text. -/
theorem RuleSet.parse_eq_iff (hg : g.Ranked empty rank) (start : ρ) (text : List Char) :
    (g.parse start text).result = o ↔ Derives g (.phrase (.rule start)) (.ofText text) o := by
  have hdepth : text.length * (g.size + 1) + rank start + 1 ≤ g.depthFor text := by
    have hr := hg.rank_le start
    rw [RuleSet.depthFor, Nat.succ_mul]
    omega
  have hparse : Derives g (.phrase (.rule start)) (.ofText text) (g.parse start text).result :=
    RuleSet.call_follows hg hdepth _ _ (Nat.le_refl _)
  constructor
  · rintro rfl
    exact hparse
  · exact hparse.unique

end FeatureFilter.Grammar
