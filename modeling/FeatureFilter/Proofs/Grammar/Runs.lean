import FeatureFilter.Proofs.Grammar.Scanning
import FeatureFilter.Grammar.Phrase

namespace FeatureFilter.Grammar

open Text (Position)

variable {ρ : Type}

namespace Outcome

/-- Goes on behind a match, the trees of what follows behind its trees, or else with `failed`. -/
def onward (o : Outcome ρ) (failed : Attempts ρ → Outcome ρ) (next : Step ρ) : Outcome ρ :=
  match o with
  | ⟨a, none⟩ => failed a
  | ⟨a, some (d, ts)⟩ =>
    match next d a with
    | ⟨a, none⟩ => ⟨a, none⟩
    | ⟨a, some (d, us)⟩ => ⟨a, some (d, ts ++ us)⟩

def otherwise (o : Outcome ρ) (failed : Attempts ρ → Outcome ρ) : Outcome ρ :=
  match o with
  | ⟨a, none⟩ => failed a
  | ⟨a, some m⟩ => ⟨a, some m⟩

end Outcome

theorem runMany_succ (step : Step ρ) (n : Nat) (c : Cursor) (a : Attempts ρ) :
    runMany step (n + 1) c a =
      (step c.skipBlanks a).onward (fun b => ⟨b, some (c, [])⟩) (runMany step n) := rfl

namespace Phrase

variable (call : ρ → Step ρ) (x y : Phrase ρ) (c : Cursor) (a : Attempts ρ)

theorem run_seq : (seq x y).run call c a =
    (x.run call c a).onward (fun b => ⟨b, none⟩) fun d => y.run call d.skipBlanks := rfl

theorem run_choice : (choice x y).run call c a = (x.run call c a).otherwise (y.run call c) := rfl

theorem run_optional : (optional x).run call c a =
    (x.run call c a).otherwise fun b => ⟨b, some (c, [])⟩ := rfl

theorem run_many : (many x).run call c a = (x.run call c a).onward (fun b => ⟨b, some (c, [])⟩)
    fun d => runMany (x.run call) (d.rest.length + 1) d := rfl

end Phrase

/-- Points on which `P` holds stay so when something is taken, and notes on which `Q` holds stay so
when a failure at such a point is noted. -/
structure Steady (P : Cursor → Prop) (Q : Attempts ρ → Prop) : Prop where
  move : ∀ {c taken rest}, P c → taken ++ rest = c.rest → P (c.moveTo taken rest)
  record : ∀ {c a b} (r : ρ), P c → Q a → Q b → Q (.record r c.position a b)

structure Outcome.Keeps (P : Cursor → Prop) (Q : Attempts ρ → Prop) (o : Outcome ρ) : Prop where
  attempts : Q o.attempts
  result : ∀ d ts, o.result = some (d, ts) → P d

def Step.Keeps (P : Cursor → Prop) (Q : Attempts ρ → Prop) (step : Step ρ) : Prop :=
  ∀ c a, P c → Q a → (step c a).Keeps P Q

variable {P : Cursor → Prop} {Q : Attempts ρ → Prop}

theorem Steady.skipBlanks (hs : Steady P Q) (h : P c) : P c.skipBlanks :=
  hs.move h List.takeWhile_append_dropWhile

namespace Outcome.Keeps

theorem failed (ha : Q a) : Keeps P Q ⟨a, none⟩ := by
  refine ⟨ha, ?_⟩
  intro d ts h
  cases h

theorem matched (ha : Q a) (hd : P d) (ts : List (ParseTree ρ)) : Keeps P Q ⟨a, some (d, ts)⟩ := by
  refine ⟨ha, ?_⟩
  intro d' ts' h
  cases h
  exact hd

theorem onward {o : Outcome ρ} {next : Step ρ} (h : Keeps P Q o)
    (hf : ∀ a, Q a → Keeps P Q (f a)) (hn : next.Keeps P Q) :
    Keeps P Q (o.onward f next) := by
  obtain ⟨a, result⟩ := o
  cases result with
  | none => exact hf a h.attempts
  | some m =>
    obtain ⟨d, ts⟩ := m
    have hmore := hn d a (h.result d ts rfl) h.attempts
    rw [Outcome.onward]
    cases hr : next d a with
    | mk b result =>
      rw [hr] at hmore
      cases result with
      | none => exact failed hmore.attempts
      | some m => exact matched hmore.attempts (hmore.result _ _ rfl) _

theorem otherwise {o : Outcome ρ} (h : Keeps P Q o) (hf : ∀ a, Q a → Keeps P Q (f a)) :
    Keeps P Q (o.otherwise f) := by
  obtain ⟨a, result⟩ := o
  cases result with
  | none => exact hf a h.attempts
  | some m => exact h

end Outcome.Keeps

open Outcome.Keeps (failed matched)

theorem runMany_keeps {step : Step ρ} (hs : Steady P Q) (h : step.Keeps P Q) (n : Nat) :
    (runMany step n).Keeps P Q := by
  induction n with
  | zero =>
    intro c a hc ha
    exact matched ha hc []
  | succ n ih =>
    intro c a hc ha
    rw [runMany_succ]
    apply (h c.skipBlanks a (hs.skipBlanks hc) ha).onward _ ih
    intro b hb
    exact matched hb hc []

theorem Phrase.run_keeps {call : ρ → Step ρ} (hs : Steady P Q) (h : ∀ r, (call r).Keeps P Q)
    (e : Phrase ρ) : Step.Keeps P Q (e.run call) := by
  induction e with
  | nothing =>
    intro c a hc ha
    exact matched ha hc []
  | endOfText =>
    intro c a hc ha
    rw [run]
    split
    · exact matched ha hc []
    · exact failed ha
  | mark ws =>
    intro c a hc ha
    rw [run]
    cases hscan : Pattern.scan (.text ws) c.rest with
    | none => exact failed ha
    | some m => exact matched ha (hs.move hc (Pattern.append_of_scan hscan)) []
  | rule r => exact h r
  | seq x y ihx ihy =>
    intro c a hc ha
    rw [run_seq]
    apply (ihx c a hc ha).onward
    · intro b hb
      exact failed hb
    · intro d b hd hb
      exact ihy d.skipBlanks b (hs.skipBlanks hd) hb
  | choice x y ihx ihy =>
    intro c a hc ha
    rw [run_choice]
    apply (ihx c a hc ha).otherwise
    intro b hb
    exact ihy c b hc hb
  | optional x ih =>
    intro c a hc ha
    rw [run_optional]
    apply (ih c a hc ha).otherwise
    intro b hb
    exact matched hb hc []
  | many x ih =>
    intro c a hc ha
    rw [run_many]
    apply (ih c a hc ha).onward
    · intro b hb
      exact matched hb hc []
    · intro d b hd hb
      exact runMany_keeps hs ih _ d b hd hb

theorem RuleSet.call_keeps (g : RuleSet ρ) (hs : Steady P Q) (n : Nat) (r : ρ) :
    (g.call n r).Keeps P Q := by
  induction n generalizing r with
  | zero =>
    intro c a hc ha
    exact failed ha
  | succ n ih =>
    intro c a hc ha
    rw [RuleSet.call]
    cases hdef : g.define r with
    | token p =>
      simp only
      cases hscan : p.scan c.rest with
      | none => exact failed (hs.record r hc ha ha)
      | some m => exact matched ha (hs.move hc (Pattern.append_of_scan hscan)) _
    | phrase e =>
      have he := e.run_keeps hs ih c a hc ha
      simp only
      cases hr : e.run (g.call n) c a with
      | mk b result =>
        rw [hr] at he
        cases result with
        | none => exact failed (hs.record r hc ha he.attempts)
        | some m => exact matched he.attempts (he.result _ _ rfl) _

theorem after_append (p : Position) (cs ds : List Char) :
    p.after (cs ++ ds) = (p.after cs).after ds := List.foldl_append

/-- A position behind a part of a text. -/
def PlaceOf (text : List Char) (p : Position) : Prop :=
  ∃ before behind, before ++ behind = text ∧ p = Position.origin.after before

/-- From one point to another, over the text between them. -/
def Cursor.Leads (c d : Cursor) : Prop :=
  ∃ w, w ++ d.rest = c.rest ∧ d.position = c.position.after w

namespace Cursor.Leads

theorem refl (c : Cursor) : c.Leads c := ⟨[], rfl, rfl⟩

theorem trans (h : Leads c d) (h' : Leads d d') : Leads c d' := by
  obtain ⟨w, happ, hpos⟩ := h
  obtain ⟨w', happ', hpos'⟩ := h'
  refine ⟨w ++ w', ?_, ?_⟩
  · rw [List.append_assoc, happ', happ]
  · rw [after_append, ← hpos, hpos']

theorem moveTo (hc : taken ++ behind = c.rest) : Leads c (c.moveTo taken behind) := ⟨taken, hc, rfl⟩

theorem skipBlanks (c : Cursor) : c.Leads c.skipBlanks := moveTo List.takeWhile_append_dropWhile

end Cursor.Leads

theorem Attempts.position_record (r : ρ) (p : Position) (a b : Attempts ρ) :
    (record r p a b).position = b.position ∨ (record r p a b).position = p := by
  simp only [record]
  by_cases hone : b.countAt p = a.countAt p + 1
  · rw [if_pos hone]
    exact .inl rfl
  · rw [if_neg hone]
    split
    · exact .inl rfl
    · split
      · exact .inr rfl
      · exact .inl rfl

theorem steady_leads (text : List Char) :
    Steady (Cursor.Leads (.ofText text)) fun a : Attempts ρ => PlaceOf text a.position where
  move hc happ := hc.trans (.moveTo happ)
  record := by
    intro c a b r hc _ hb
    rcases Attempts.position_record r c.position a b with h | h
    · rw [h]
      exact hb
    · rw [h]
      obtain ⟨before, happ, hpos⟩ := hc
      exact ⟨before, c.rest, happ, hpos⟩

/-- What a failed parse reports is a place of the text. -/
theorem RuleSet.placeOf_parse (g : RuleSet ρ) (start : ρ) (text : List Char) :
    PlaceOf text (g.parse start text).attempts.position :=
  (g.call_keeps (steady_leads text) _ start _ _ (.refl _) ⟨[], text, rfl, rfl⟩).attempts

end FeatureFilter.Grammar
