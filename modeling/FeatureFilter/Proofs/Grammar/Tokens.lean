import Mathlib.Data.List.Forall2
import FeatureFilter.Proofs.Grammar.Cql2
import FeatureFilter.Proofs.Grammar.Words

namespace FeatureFilter.Grammar

/-- Whether a character would be taken into a token that ends in another. -/
def joins (a b : Char) : Bool :=
  isNameChar a && isNameChar b || a == '\'' && b == '\'' ||
    (a == '<' || a == '>') && (b == '=' || b == '>')

def Apart (token rest : List Char) : Prop :=
  ∀ a ∈ token.getLast?, ∀ b ∈ rest.head?, joins a b = false

inductive Laid : List (List Char) → List Char → Prop
  | nil (blanks : List Char) : blanks.all isBlank = true → Laid [] blanks
  | cons (blanks : List Char) : blanks.all isBlank = true → Apart t rest → Laid ts rest →
    Laid (t :: ts) (blanks ++ (t ++ rest))

def spaced : List (List Char) → List Char
  | [] => []
  | [t] => t
  | t :: ts => t ++ ' ' :: spaced ts

def Solid (t : List Char) : Prop := ∃ c cs, t = c :: cs ∧ isBlank c = false

theorem solid_iff : Solid t ↔ t.head?.any (fun c => !isBlank c) = true := by
  constructor
  · rintro ⟨c, cs, rfl, hc⟩
    simp only [List.head?_cons, Option.any_some, hc, Bool.not_false]
  · intro h
    cases t with
    | nil => cases h
    | cons c cs => exact ⟨c, cs, rfl, Bool.not_eq_eq_eq_not.1 h⟩

instance (t : List Char) : Decidable (Solid t) := decidable_of_iff _ solid_iff.symm

theorem isBlank_of_isNameChar (h : isNameChar c = true) : isBlank c = false := by
  cases hb : isBlank c with
  | false => rfl
  | true =>
    simp only [isBlank, Bool.or_eq_true, beq_iff_eq] at hb
    rcases hb with ((rfl | rfl) | rfl) | rfl <;> cases h

theorem Apart.endsWord (h : Apart t rest) (ha : t.getLast? = some a) (hn : isNameChar a = true) :
    EndsWord rest := by
  intro b hb
  have hjoins := h a ha b hb
  cases hc : isNameChar b with
  | false => rfl
  | true =>
    rw [joins, hn, hc] at hjoins
    cases hjoins

theorem Apart.blank (t cs : List Char) : Apart t (' ' :: cs) := by
  rintro a - b ⟨⟩
  have hname : isNameChar ' ' = false := rfl
  have hsign : (' ' == '=' || ' ' == '>') = false := rfl
  have hquote : (' ' == '\'') = false := rfl
  rw [joins, hname, hquote, hsign, Bool.and_false, Bool.and_false, Bool.and_false]
  rfl

theorem Apart.ne_of_joins (h : Apart [a] (b :: rest)) (hj : joins a c = true) : b ≠ c := by
  rintro rfl
  exact Bool.false_ne_true ((h a rfl b rfl).symm.trans hj)

namespace Laid

theorem blank (h : Laid ts cs) : Laid ts (' ' :: cs) := by
  cases h with
  | nil _ hb => exact .nil _ hb
  | cons blanks hb ha h => exact .cons (' ' :: blanks) hb ha h

theorem of_spaced (ts : List (List Char)) : Laid ts (spaced ts) := by
  induction ts with
  | nil => exact .nil [] rfl
  | cons t ts ih =>
    cases ts with
    | nil =>
      have h : Laid [t] ([] ++ (t ++ [])) := .cons [] rfl (fun _ _ => nofun) (.nil [] rfl)
      rwa [List.nil_append, List.append_nil] at h
    | cons u ts => exact .cons [] rfl (.blank t _) ih.blank

theorem rest_skipBlanks_nil {c : Cursor} (h : Laid [] c.rest) : c.skipBlanks.rest = [] := by
  cases h with
  | nil _ hb =>
    have hdrop : (c.rest ++ []).dropWhile isBlank = [].dropWhile isBlank :=
      List.dropWhile_append_of_pos (List.all_eq_true.1 hb)
    rwa [List.append_nil] at hdrop

theorem exists_front {c : Cursor} (h : Laid (t :: ts) c.rest) (ht : Solid t) :
    ∃ rest, c.skipBlanks.rest = t ++ rest ∧ Apart t rest ∧ Laid ts rest := by
  obtain ⟨b, bs, rfl, hsolid⟩ := ht
  generalize hc : c.rest = cs at h
  cases h with
  | @cons _ rest _ blanks hb ha h =>
    refine ⟨rest, ?_, ha, h⟩
    show c.rest.dropWhile isBlank = _
    rw [hc, List.dropWhile_append_of_pos (List.all_eq_true.1 hb), List.cons_append,
      List.dropWhile_cons_of_neg]
    rw [hsolid]
    exact Bool.false_ne_true

theorem skipBlanks {c : Cursor} (h : Laid ks c.rest) (hks : ∀ t ∈ ks.head?, Solid t) :
    Laid ks c.skipBlanks.rest := by
  cases ks with
  | nil =>
    rw [h.rest_skipBlanks_nil]
    exact .nil [] rfl
  | cons t ks =>
    obtain ⟨rest, hrest, hapart, h⟩ := h.exists_front (hks t rfl)
    rw [hrest]
    exact .cons [] rfl hapart h

end Laid

/-- What follows is nothing, or starts with one of the tokens. -/
def Stops (allowed ks : List (List Char)) : Prop := ∀ t ∈ ks.head?, t ∈ allowed

theorem Stops.mono (h : Stops allowed ks) (hsub : ∀ t ∈ allowed, t ∈ others) : Stops others ks :=
  fun t ht => hsub t (h t ht)

theorem Stops.cons (h : t ∈ allowed) (ks : List (List Char)) : Stops allowed (t :: ks) := by
  rintro t ⟨⟩
  exact h

theorem scan_of_stops {p : Pattern} (hnil : p.scan [] = none) (hs : ∀ t ∈ allowed, Solid t)
    (hp : ∀ t ∈ allowed, ∀ rest, p.scan (t ++ rest) = none) (hks : Stops allowed ks)
    {c : Cursor} (hl : Laid ks c.rest) : p.scan c.skipBlanks.rest = none := by
  cases ks with
  | nil => rw [hl.rest_skipBlanks_nil, hnil]
  | cons t ks =>
    have ht := hks t rfl
    obtain ⟨rest, hrest, -, -⟩ := hl.exists_front (hs t ht)
    rw [hrest, hp t ht]

theorem Pattern.Single.scan_of_front {p : Pattern} (hp : p.Single f)
    (allowed : List (List Char)) (h : allowed.all (fun t => t.head?.any fun c => !f c) = true) :
    ∀ t ∈ allowed, ∀ rest, p.scan (t ++ rest) = none := by
  intro t ht rest
  have hfront := List.all_eq_true.1 h t ht
  cases t with
  | nil => cases hfront
  | cons c cs =>
    have hc : f c = false := Bool.not_eq_eq_eq_not.1 hfront
    rw [List.cons_append, hp.cons, hc]
    rfl

/-- Where the tokens stand, and such tokens follow, the phrase takes just the tokens and gives trees
with a property. -/
def Takes (x : Phrase Rule) (ts : List (List Char)) (follow : List (List Char) → Prop)
    (P : List (ParseTree Rule) → Prop) : Prop :=
  ∀ (c : Cursor) (ks : List (List Char)), Laid (ts ++ ks) c.rest → follow ks →
    ∃ d trees, Laid ks d.rest ∧ Derives cql2 (.phrase x) c.skipBlanks (some (d, trees)) ∧ P trees

/-- Where the tokens stand, the phrase fails. -/
def Refuses (x : Phrase Rule) (ks : List (List Char)) : Prop :=
  ∀ c : Cursor, Laid ks c.rest → Derives cql2 (.phrase x) c.skipBlanks none

theorem Refuses.of_stops {p : Pattern} (hr : cql2.define r = .token p) (hnil : p.scan [] = none)
    (hs : ∀ t ∈ allowed, Solid t) (hp : ∀ t ∈ allowed, ∀ rest, p.scan (t ++ rest) = none)
    (hks : Stops allowed ks) : Refuses (.rule r) ks :=
  fun _ hl => .noToken hr (scan_of_stops hnil hs hp hks hl)

theorem Refuses.of_misses (ht : Solid t) (h : ∀ rest, cql2.misses n (t ++ rest) r = true)
    (ks : List (List Char)) : Refuses (.rule r) (t :: ks) := by
  intro c hl
  obtain ⟨rest, hrest, -, -⟩ := hl.exists_front ht
  apply RuleSet.derives_of_misses c.skipBlanks_skipBlanks (n := n)
  rw [hrest]
  exact h rest

/-- A single tree with a property. -/
def Sole (P : ParseTree Rule → Prop) (trees : List (ParseTree Rule)) : Prop :=
  ∃ t, trees = [t] ∧ P t

def Spelling (w : String) (t : List Char) : Prop :=
  t ≠ [] ∧ t.all isNameChar = true ∧ t.map Char.toLower = w.toList

theorem Spelling.solid (h : Spelling w t) : Solid t := by
  obtain ⟨hne, hall, -⟩ := h
  obtain ⟨c, cs, rfl⟩ := List.exists_cons_of_ne_nil hne
  exact ⟨c, cs, rfl, isBlank_of_isNameChar (List.all_eq_true.1 hall c List.mem_cons_self)⟩

namespace Takes

theorem mono (h : Takes x ts follow P) (hP : ∀ trees, P trees → Q trees) :
    Takes x ts follow Q := by
  intro c ks hl hks
  obtain ⟨d, trees, hd, ht, hp⟩ := h c ks hl hks
  exact ⟨d, trees, hd, ht, hP trees hp⟩

theorem narrow (h : Takes x ts follow P) (hf : ∀ ks, follow' ks → follow ks) :
    Takes x ts follow' P := by
  intro c ks hl hks
  exact h c ks hl (hf ks hks)

theorem sole (h : Takes x ts follow (Sole P)) (hP : ∀ t, P t → Q t) :
    Takes x ts follow (Sole Q) := by
  apply h.mono
  rintro trees ⟨t, rfl, ht⟩
  exact ⟨t, rfl, hP t ht⟩

theorem mark (ws : List Char) (hw : Solid ws) (follow : List (List Char) → Prop) :
    Takes (.mark ws) [ws] follow (· = []) := by
  intro c ks hl hks
  obtain ⟨rest, hrest, -, hl⟩ := hl.exists_front hw
  have hscan : (Pattern.text ws).scan c.skipBlanks.rest = some (ws, rest) :=
    Pattern.scan_text_iff.2 ⟨rfl, hrest⟩
  exact ⟨c.skipBlanks.moveTo ws rest, [], hl, .mark hscan, rfl⟩

theorem token (hr : cql2.define r = .token p) (ht : Solid t)
    (hp : ∀ rest, Apart t rest → p.scan (t ++ rest) = some (t, rest))
    (follow : List (List Char) → Prop) :
    Takes (.rule r) [t] follow (Sole fun u => ∃ s, u = .token r s t) := by
  intro c ks hl hks
  obtain ⟨rest, hrest, hapart, hl⟩ := hl.exists_front ht
  have hscan : p.scan c.skipBlanks.rest = some (t, rest) := by
    rw [hrest]
    exact hp rest hapart
  exact ⟨c.skipBlanks.moveTo t rest, _, hl, .token hr hscan, _, rfl, _, rfl⟩

theorem keyword (hr : cql2.define r = .token (.keyword w)) (ht : Spelling w t)
    (follow : List (List Char) → Prop) :
    Takes (.rule r) [t] follow (Sole fun u => ∃ s, u = .token r s t) := by
  apply token hr ht.solid
  intro rest hapart
  obtain ⟨hne, hall, hlower⟩ := ht
  have hlast := List.getLast?_eq_some_getLast hne
  have hend := hapart.endsWord hlast (List.all_eq_true.1 hall _ (List.getLast_mem hne))
  exact Pattern.scan_keyword_of_lower hall hend hlower

theorem rule (hr : cql2.define r = .phrase x) (h : Takes x ts follow P)
    (hQ : ∀ s us, P us → Q (.node r s us)) : Takes (.rule r) ts follow (Sole Q) := by
  intro c ks hl hks
  obtain ⟨d, trees, hd, ht, hp⟩ := h c ks hl hks
  exact ⟨d, _, hd, .node hr ht, _, rfl, hQ _ trees hp⟩

theorem seq (hx : Takes x ts follow P) (hy : Takes y us follow' Q)
    (hf : ∀ ks, follow' ks → follow (us ++ ks)) :
    Takes (.seq x y) (ts ++ us) follow' fun trees => ∃ v w, trees = v ++ w ∧ P v ∧ Q w := by
  intro c ks hl hks
  rw [List.append_assoc] at hl
  obtain ⟨d, v, hd, hv, hp⟩ := hx c (us ++ ks) hl (hf ks hks)
  obtain ⟨d', w, hd', hw, hq⟩ := hy d ks hd hks
  exact ⟨d', v ++ w, hd', .seq hv hw, v, w, rfl, hp, hq⟩

theorem optional (h : Takes x ts follow P) : Takes (.optional x) ts follow P := by
  intro c ks hl hks
  obtain ⟨d, trees, hd, ht, hp⟩ := h c ks hl hks
  exact ⟨d, trees, hd, .optional ht, hp⟩

theorem absent (hs : ∀ ks, follow ks → ∀ t ∈ ks.head?, Solid t)
    (h : ∀ ks, follow ks → Refuses x ks) : Takes (.optional x) [] follow (· = []) := by
  intro c ks hl hks
  exact ⟨c.skipBlanks, [], hl.skipBlanks (hs ks hks), .absent (h ks hks c hl), rfl⟩

theorem choiceLeft (h : Takes x ts follow P) (y : Phrase Rule) :
    Takes (.choice x y) ts follow P := by
  intro c ks hl hks
  obtain ⟨d, trees, hd, ht, hp⟩ := h c ks hl hks
  exact ⟨d, trees, hd, .choiceLeft ht, hp⟩

theorem choiceRight (hx : ∀ ks, follow ks → Refuses x (ts ++ ks)) (h : Takes y ts follow P) :
    Takes (.choice x y) ts follow P := by
  intro c ks hl hks
  obtain ⟨d, trees, hd, ht, hp⟩ := h c ks hl hks
  exact ⟨d, trees, hd, .choiceRight (hx ks hks c hl) ht, hp⟩

theorem anyOf {rules : List Rule} (n : Nat) (hn : rules[n]? = some r)
    (hmiss : ∀ q ∈ rules.take n, ∀ ks, follow ks → Refuses (.rule q) (ts ++ ks))
    (h : Takes (.rule r) ts follow P) : Takes (.anyOf (rules.map .rule)) ts follow P := by
  intro c ks hl hks
  obtain ⟨d, trees, hd, ht, hp⟩ := h c ks hl hks
  have hany := derives_anyOf_of_getElem? n hn (fun q hq => hmiss q hq ks hks c hl) ht
  exact ⟨d, trees, hd, hany, hp⟩

theorem parens (h : Takes x ts (Stops [[')']]) P) (follow : List (List Char) → Prop) :
    Takes (.parens x) (['('] :: (ts ++ [[')']])) follow P := by
  have hopen := mark ['('] ⟨_, _, rfl, rfl⟩ fun _ => True
  have hclose := mark [')'] ⟨_, _, rfl, rfl⟩ follow
  have hinside := h.seq hclose fun ks _ => .cons (List.mem_singleton_self _) ks
  apply (hopen.seq hinside fun _ _ => trivial).mono
  rintro trees ⟨_, _, rfl, rfl, v, _, rfl, hp, rfl⟩
  rwa [List.nil_append, List.append_nil]

end Takes

/-- Items with separators between them, from one point to another, where more may follow. -/
inductive Items (separator item : Phrase Rule) (c : Cursor) :
    Cursor → List (ParseTree Rule) → Prop
  | one : Derives cql2 (.phrase item) c (some (d, ts)) → Items separator item c d ts
  | snoc : Items separator item c d ts →
    Derives cql2 (.phrase separator) d.skipBlanks (some (d', os)) →
    Derives cql2 (.phrase item) d'.skipBlanks (some (d'', us)) →
    Items separator item c d'' (ts ++ (os ++ us))

namespace Items

/-- The items and whatever a repetition takes behind them are taken together. -/
theorem derives_again (h : Items separator item c d ts)
    (hmore : Derives cql2 (.again (.seq separator item)) d (some (d', us))) :
    ∃ d'', (d'' = d' ∨ d'' = d'.skipBlanks) ∧
      Derives cql2 (.phrase (.separated separator item)) c (some (d'', ts ++ us)) := by
  -- Items grow at their end and repetitions at their front, so what follows is generalized.
  induction h generalizing us with
  | one hitem =>
    cases hmore with
    | again hx hm => exact ⟨d', .inl rfl, .seq hitem (.many hx hm)⟩
    | done hx => exact ⟨_, .inr rfl, .seq hitem (.never hx)⟩
  | snoc _ hsep hitem ih =>
    have hrest := ih (.again (.seq hsep hitem) hmore)
    rwa [← List.append_assoc] at hrest

theorem derives (h : Items separator item c d ts)
    (hend : Derives cql2 (.phrase separator) d.skipBlanks none) :
    ∃ d', (d' = d ∨ d' = d.skipBlanks) ∧
      Derives cql2 (.phrase (.separated separator item)) c (some (d', ts)) := by
  have h := h.derives_again (.done (.seqLeft hend))
  rwa [List.append_nil] at h

end Items

/-- Tokens of items with a comma in front of each. -/
def behindCommas : List (List (List Char)) → List (List Char)
  | [] => []
  | p :: ps => [','] :: (p ++ behindCommas ps)

def commaTokens : List (List (List Char)) → List (List Char)
  | [] => []
  | p :: ps => p ++ behindCommas ps

def tupleTokens (parts : List (List (List Char))) : List (List Char) :=
  ['('] :: (commaTokens parts ++ [[')']])

def closers : List (List Char) := [[')'], [',']]

theorem solid_of_mem_closers : ∀ t ∈ closers, Solid t := by decide

section Lists

variable {α : Type} {tokens : α → List (List Char)} {P : α → ParseTree Rule → Prop}
  {item : Phrase Rule} {xs : List α}

theorem stops_behindCommas (h : Stops [[')']] ks) (parts : List (List (List Char))) :
    Stops closers (behindCommas parts ++ ks) := by
  cases parts with
  | nil =>
    intro t ht
    cases List.mem_singleton.1 (h t ht)
    decide
  | cons p ps => exact .cons (by decide) _

theorem exists_items (h : ∀ x ∈ xs, Takes item (tokens x) (Stops closers) (Sole (P x)))
    (hfirst : Items (.str ",") item c d ts)
    (hl : Laid (behindCommas (xs.map tokens) ++ ks) d.rest) (hks : Stops [[')']] ks) :
    ∃ d' us, Laid ks d'.rest ∧ Items (.str ",") item c d' (ts ++ us) ∧ List.Forall₂ P xs us := by
  induction xs generalizing d ts with
  | nil =>
    refine ⟨d, [], hl, ?_, .nil⟩
    rwa [List.append_nil]
  | cons x xs ih =>
    have hcomma := Takes.mark [','] ⟨_, _, rfl, rfl⟩ fun _ => True
    rw [List.map_cons, behindCommas, List.cons_append, List.append_assoc] at hl
    obtain ⟨d₁, _, hd₁, hcomma, rfl⟩ := hcomma d _ hl trivial
    obtain ⟨d₂, _, hd₂, hitem, t, rfl, ht⟩ := h x List.mem_cons_self d₁ _ hd₁
      (stops_behindCommas hks _)
    obtain ⟨d', us, hd', hitems, hus⟩ := ih (fun y hy => h y (List.mem_cons_of_mem x hy))
      (hfirst.snoc hcomma hitem) hd₂
    refine ⟨d', t :: us, hd', ?_, .cons ht hus⟩
    rwa [List.append_assoc] at hitems

theorem takes_commas (hne : xs ≠ [])
    (h : ∀ x ∈ xs, Takes item (tokens x) (Stops closers) (Sole (P x))) :
    Takes (.commas item) (commaTokens (xs.map tokens)) (Stops [[')']]) (List.Forall₂ P xs) := by
  intro c ks hl hks
  cases xs with
  | nil => exact absurd rfl hne
  | cons x xs =>
    rw [List.map_cons, commaTokens, List.append_assoc] at hl
    obtain ⟨hx, hxs⟩ := List.forall_mem_cons.1 h
    obtain ⟨d, _, hd, hitem, t, rfl, ht⟩ := hx c _ hl (stops_behindCommas hks _)
    obtain ⟨d', us, hd', hitems, hus⟩ := exists_items hxs (.one hitem) hd hks
    have hsolid : ∀ t ∈ [[')']], Solid t := List.forall_mem_singleton.2 ⟨_, _, rfl, rfl⟩
    have hend : Derives cql2 (.phrase (.str ",")) d'.skipBlanks none :=
      .noMark (scan_of_stops rfl hsolid (List.forall_mem_singleton.2 fun _ => rfl) hks hd')
    obtain ⟨d'', hd'', hlist⟩ := hitems.derives hend
    refine ⟨d'', t :: us, ?_, hlist, .cons ht hus⟩
    rcases hd'' with rfl | rfl
    · exact hd'
    · exact hd'.skipBlanks fun t ht => hsolid t (hks t ht)

theorem takes_tuple (hne : xs ≠ [])
    (h : ∀ x ∈ xs, Takes item (tokens x) (Stops closers) (Sole (P x)))
    (follow : List (List Char) → Prop) :
    Takes (.tuple item) (tupleTokens (xs.map tokens)) follow (List.Forall₂ P xs) :=
  (takes_commas hne h).parens follow

end Lists
end FeatureFilter.Grammar
