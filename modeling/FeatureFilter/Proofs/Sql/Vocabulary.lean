import FeatureFilter.Proofs.Sql.Provenance
import FeatureFilter.Proofs.Sql.Rendering
import FeatureFilter.Proofs.Sql.Spacing

namespace FeatureFilter

namespace Sql

/-- A piece of a scanned predicate. -/
inductive Piece where
  /-- Quoted names with points between them, as many as follow each other. -/
  | chain (names : List (List Char))
  /-- A stretch outside quoted names. -/
  | plain (cs : List Char)

def Piece.text : Piece → List Char
  | .chain names => chainText names
  | .plain cs => cs

def consPlain (c : Char) : List Piece → List Piece
  | .plain cs :: ps => .plain (c :: cs) :: ps
  | ps => .plain [c] :: ps

/-- Scans a predicate. A quote opens a chain; there is no reading if a quote is not closed. -/
def pieces : List Char → Option (List Piece)
  | [] => some []
  | c :: cs =>
    if c = '"' then
      match _h : readChain (c :: cs) with
      | none => none
      | some (names, rest) => (pieces rest).map (.chain names :: ·)
    else (pieces cs).map (consPlain c)
termination_by cs => cs.length
decreasing_by
  · exact readChain_length _h
  · exact Nat.lt_succ_self _

theorem text_consPlain (c : Char) (ps : List Piece) :
    (consPlain c ps).flatMap Piece.text = c :: ps.flatMap Piece.text := by
  fun_cases consPlain c ps <;> rfl

/-- Nothing is lost in a scan. -/
theorem text_of_pieces (h : pieces cs = some ps) : ps.flatMap Piece.text = cs := by
  fun_induction pieces cs generalizing ps with
  | case1 =>
    cases h
    rfl
  | case2 => cases h
  | case3 cs names rest hc ih =>
    obtain ⟨ps', hp, rfl⟩ := Option.map_eq_some_iff.1 h
    rw [List.flatMap_cons, ih hp, eq_of_readChain hc]
    rfl
  | case4 c cs hc ih =>
    obtain ⟨ps', hp, rfl⟩ := Option.map_eq_some_iff.1 h
    rw [text_consPlain, ih hp]

theorem pieces_chainText (hne : names ≠ []) (hq : rest.head? ≠ some '"')
    (hp : rest.head? ≠ some '.') :
    pieces (chainText names ++ rest) = (pieces rest).map (.chain names :: ·) := by
  obtain ⟨cs, hcs⟩ := exists_chainText_eq_cons hne
  have hr := readChain_chainText hne hq hp
  rw [hcs, List.cons_append] at hr ⊢
  rw [pieces, if_pos rfl]
  split
  · rename_i hn
    cases hr.symm.trans hn
  · rename_i hn
    cases hr.symm.trans hn
    rfl

theorem pieces_plain (h : '"' ∉ w) (cs : List Char) :
    pieces (w ++ cs) = (pieces cs).map fun ps => w.foldr consPlain ps := by
  induction w with
  | nil => exact Option.map_id'.symm
  | cons c w ih =>
    obtain ⟨hc, hw⟩ := not_or.1 (mt List.mem_cons.2 h)
    rw [List.cons_append, pieces, if_neg (Ne.symm hc), ih hw, Option.map_map]
    rfl

theorem foldr_consPlain_plain (w cs : List Char) (ps : List Piece) :
    w.foldr consPlain (.plain cs :: ps) = .plain (w ++ cs) :: ps := by
  induction w with
  | nil => rfl
  | cons c w ih => rw [List.foldr_cons, ih, consPlain, List.cons_append]

theorem foldr_consPlain_of_ne (hw : w ≠ []) (hps : ∀ cs qs, ps ≠ .plain cs :: qs) :
    w.foldr consPlain ps = .plain w :: ps := by
  obtain ⟨c, w, rfl⟩ := List.exists_cons_of_ne_nil hw
  induction w generalizing c with
  | nil =>
    rw [List.foldr_cons, List.foldr_nil, consPlain]
    exact hps
  | cons d w ih => rw [List.foldr_cons, ih d (List.cons_ne_nil _ _), consPlain]

/-- Pieces come from marks: a chain from a column, and what stands outside quoted names from a
stretch of marks without columns, of which the first starts where the marks do. -/
structure Cuts (k : Nat) (ms : List Mark) (ps : List Piece) : Prop where
  chain : ∀ names, .chain names ∈ ps →
    ∃ name, .column name ∈ ms ∧ names = splitAt '.' name.toList
  plain : ∀ cs, .plain cs ∈ ps →
    ∃ j ns, ns <:+: ms ∧ (∀ name, .column name ∉ ns) ∧ cs = text j ns
  first : ∀ cs qs, ps = .plain cs :: qs →
    ∃ ns, ns <+: ms ∧ (∀ name, .column name ∉ ns) ∧ cs = text k ns

theorem Cuts.nil (k : Nat) : Cuts k [] [] := ⟨nofun, nofun, nofun⟩

theorem Cuts.column (name : String) (h : Cuts k ms ps) :
    Cuts k (.column name :: ms) (.chain (splitAt '.' name.toList) :: ps) := by
  refine ⟨fun names hm => ?_, fun cs hm => ?_, nofun⟩
  · rcases List.mem_cons.1 hm with hm | hm
    · cases hm
      exact ⟨name, List.mem_cons_self, rfl⟩
    · obtain ⟨name', hm', he⟩ := h.chain names hm
      exact ⟨name', List.mem_cons_of_mem _ hm', he⟩
  · obtain ⟨j, ns, hi, hc, he⟩ := h.plain cs ((List.mem_cons.1 hm).resolve_left nofun)
    exact ⟨j, ns, List.infix_cons hi, hc, he⟩

theorem Cuts.cons (hm : ∀ name, m ≠ .column name) (hw : w ≠ [])
    (ht : ∀ ns, text k (m :: ns) = w ++ text k' ns) (h : Cuts k' ms ps) :
    Cuts k (m :: ms) (w.foldr consPlain ps) := by
  have hcons {ns : List Mark} (hc : ∀ name, .column name ∉ ns) :
      ∀ name, .column name ∉ m :: ns := fun name hn =>
    (List.mem_cons.1 hn).elim (fun he => hm name he.symm) (hc name)
  obtain ⟨v, qs, hfold, hsub, ns, hn, hc, hv⟩ : ∃ v qs, w.foldr consPlain ps = .plain v :: qs ∧
      (∀ p ∈ qs, p ∈ ps) ∧
      ∃ ns, ns <+: m :: ms ∧ (∀ name, .column name ∉ ns) ∧ v = text k ns := by
    by_cases hp : ∃ cs qs, ps = .plain cs :: qs
    · obtain ⟨cs, qs, rfl⟩ := hp
      obtain ⟨ns, hn, hc, he⟩ := h.first cs qs rfl
      refine ⟨w ++ cs, qs, foldr_consPlain_plain w cs qs, fun p => List.mem_cons_of_mem _,
        m :: ns, List.cons_prefix_cons.2 ⟨rfl, hn⟩, hcons hc, ?_⟩
      rw [ht, he]
    · refine ⟨w, ps, foldr_consPlain_of_ne hw fun cs qs he => hp ⟨cs, qs, he⟩, fun p => id,
        [m], List.cons_prefix_cons.2 ⟨rfl, List.nil_prefix⟩, hcons fun _ => List.not_mem_nil, ?_⟩
      rw [ht, text, List.append_nil]
  rw [hfold]
  refine ⟨fun names hp => ?_, fun cs hp => ?_, fun cs qs' he => ?_⟩
  · have hp := (List.mem_cons.1 hp).resolve_left fun he => by cases he
    obtain ⟨name, hmem, he⟩ := h.chain names (hsub _ hp)
    exact ⟨name, List.mem_cons_of_mem _ hmem, he⟩
  · rcases List.mem_cons.1 hp with hp | hp
    · cases hp
      exact ⟨k, ns, hn.isInfix, hc, hv⟩
    · obtain ⟨j, ns, hi, hc, he⟩ := h.plain cs (hsub _ hp)
      exact ⟨j, ns, List.infix_cons hi, hc, he⟩
  · cases he
    exact ⟨ns, hn, hc, hv⟩

/-- The text of spaced marks can be scanned, and its pieces come from the marks. -/
theorem exists_pieces_text (h : Spaced ms) : ∃ ps, pieces (text k ms) = some ps ∧ Cuts k ms ps := by
  induction ms generalizing k with
  | nil => exact ⟨[], by rw [text, pieces], .nil k⟩
  | cons m ms ih =>
    have ih {k : Nat} := ih (k := k) (List.IsChain.tail h)
    cases m with
    | token t =>
      obtain ⟨ps, hp, hcuts⟩ := ih (k := k)
      have hq : '"' ∉ t.text.toList := fun hm => (t.mem_text _ hm).1 rfl
      obtain ⟨ch, cs, he, _⟩ := t.exists_text_eq_cons
      refine ⟨_, by rw [text, pieces_plain hq, hp]; rfl, .cons (by simp) ?_ (fun _ => rfl) hcuts⟩
      rw [he]
      exact List.cons_ne_nil _ _
    | column name =>
      obtain ⟨ps, hp, hcuts⟩ := ih (k := k)
      have hnc : ∀ name', ms.head? ≠ some (.column name') := fun name' hm =>
        List.IsChain.rel_head? h hm (.columns name name')
      obtain ⟨hq, hpoint⟩ := head?_text_of_not_column k hnc
      refine ⟨_, ?_, hcuts.column name⟩
      rw [text, quoteColumn_toList, pieces_chainText (splitAt_ne_nil _ _) hq hpoint, hp]
      rfl
    | hole =>
      obtain ⟨ps, hp, hcuts⟩ := ih (k := k + 1)
      have hq : '"' ∉ (placeholder k).toList := fun hm => by
        rcases mem_placeholder hm with h | h <;> cases h
      refine ⟨_, by rw [text, pieces_plain hq, hp]; rfl, .cons (by simp) ?_ (fun _ => rfl) hcuts⟩
      rw [placeholder_toList]
      exact List.cons_ne_nil _ _

/-- The fixed words of predicates: tokens and numbered placeholders. -/
inductive Word where
  | token (t : Token)
  | placeholder (index : Nat)

def Word.text : Word → List Char
  | .token t => t.text.toList
  | .placeholder index => (Sql.placeholder index).toList

theorem exists_words (k : Nat) (h : ∀ name, .column name ∉ ms) :
    ∃ ws : List Word, text k ms = ws.flatMap Word.text := by
  induction ms generalizing k with
  | nil => exact ⟨[], rfl⟩
  | cons m ms ih =>
    have ih {k : Nat} := ih k fun name hm => h name (List.mem_cons_of_mem _ hm)
    cases m with
    | token t =>
      obtain ⟨ws, he⟩ := ih (k := k)
      exact ⟨.token t :: ws, by rw [text, he]; rfl⟩
    | column name => exact absurd List.mem_cons_self (h name)
    | hole =>
      obtain ⟨ws, he⟩ := ih (k := k + 1)
      exact ⟨.placeholder k :: ws, by rw [text, he]; rfl⟩

theorem Word.mem_text (w : Word) (h : ch ∈ w.text) : ch ≠ '\'' ∧ ch ≠ ';' ∧ ch ≠ '/' := by
  cases w with
  | token t =>
    obtain ⟨_, _, hq, hs, hd, _⟩ := t.mem_text ch h
    exact ⟨hq, hs, hd⟩
  | placeholder index =>
    rcases mem_placeholder h with rfl | h
    · decide
    · refine ⟨?_, ?_, ?_⟩ <;> rintro rfl <;> cases h

abbrev NoDashes (cs : List Char) : Prop := cs.IsChain fun a b => ¬(a = '-' ∧ b = '-')

theorem NoDashes.append (hw : '-' ∉ w) (h : NoDashes cs) : NoDashes (w ++ cs) := by
  induction w with
  | nil => exact h
  | cons c w ih =>
    obtain ⟨hc, hw⟩ := not_or.1 (mt List.mem_cons.2 hw)
    exact List.IsChain.cons (ih hw) fun _ _ he => hc he.1.symm

theorem head?_text_dash (h : (text k ms).head? = some '-') : ms.head? = some (.token .minus) := by
  match ms with
  | [] => cases h
  | .token t :: ms =>
    obtain ⟨ch, cs, he, _⟩ := t.exists_text_eq_cons
    rw [text, he] at h
    cases h
    have ht := (t.mem_text '-' (by rw [he]; exact List.mem_cons_self)).2.2.2.2.2 rfl
    rw [ht]
    rfl
  | .column name :: ms =>
    obtain ⟨cs, he⟩ := text_column k name ms
    rw [he] at h
    cases h
  | .hole :: ms =>
    rw [text_hole] at h
    cases h

theorem noDashes_text (hs : Spaced ms) (hc : ∀ name, .column name ∉ ms) :
    NoDashes (text k ms) := by
  induction ms generalizing k with
  | nil => exact .nil
  | cons m ms ih =>
    have ih {k : Nat} := ih (k := k) (List.IsChain.tail hs)
      fun name hm => hc name (List.mem_cons_of_mem _ hm)
    cases m with
    | token t =>
      by_cases ht : t = .minus
      · subst ht
        refine List.IsChain.cons ih fun ch hch he => ?_
        have hm := head?_text_dash (hch.trans (congrArg some he.2))
        exact List.IsChain.rel_head? hs hm .minuses
      · exact ih.append fun hm => ht ((t.mem_text _ hm).2.2.2.2.2 rfl)
    | column name => exact absurd List.mem_cons_self (hc name)
    | hole =>
      refine NoDashes.append (fun hm => ?_) ih
      rcases mem_placeholder hm with h | h <;> cases h

end Sql

open Sql

/-- A predicate is scanned into chains of quoted names, each the column of a queryable property
that the filter names, and stretches of tokens and placeholders that hold no single quote, no
semicolon and no comment. -/
theorem compileExpr_vocabulary (h : compileExpr e c options = .ok f) :
    ∃ ps, pieces f.sql.toList = some ps ∧ ps.flatMap Piece.text = f.sql.toList ∧
      (∀ names, .chain names ∈ ps → ∃ property ∈ e.properties, ∃ column,
        c.resolve property = .ok column ∧ c.Holds property column ∧
        chainText names = (quoteColumn column).toList) ∧
      ∀ cs, .plain cs ∈ ps → (∃ ws : List Word, cs = ws.flatMap Word.text) ∧
        '\'' ∉ cs ∧ ';' ∉ cs ∧ ¬['-', '-'] <:+: cs ∧ ¬['/', '*'] <:+: cs := by
  obtain ⟨ms, hms, hsql, _⟩ := compileExpr_marks h
  have hsp := Outline.spaced_of_eq hms
  have hcol {name : String} (hm : .column name ∈ ms) : .column name ∈ (e.outline c).marks := by
    rcases hms with rfl | rfl
    · exact hm
    · exact Outline.column_mem_parenthesized.1 hm
  obtain ⟨ps, hps, hcuts⟩ := exists_pieces_text hsp
  rw [← hsql] at hps
  refine ⟨ps, hps, text_of_pieces hps, fun names hm => ?_, fun cs hm => ?_⟩
  · obtain ⟨column, hmem, rfl⟩ := hcuts.chain names hm
    obtain ⟨property, hp, hr⟩ := Expr.column_mem_outline (hcol hmem)
    exact ⟨property, hp, column, hr, Collection.holds_of_resolve hr,
      (quoteColumn_toList column).symm⟩
  · obtain ⟨j, ns, hns, hnc, rfl⟩ := hcuts.plain cs hm
    obtain ⟨ws, hws⟩ := exists_words j hnc
    have hword {ch : Char} (hch : ch ∈ text j ns) : ch ≠ '\'' ∧ ch ≠ ';' ∧ ch ≠ '/' := by
      rw [hws, List.mem_flatMap] at hch
      obtain ⟨w, _, hch⟩ := hch
      exact w.mem_text hch
    refine ⟨⟨ws, hws⟩, fun hq => (hword hq).1 rfl, fun hs => (hword hs).2.1 rfl, fun hd => ?_,
      fun hd => (hword (hd.subset List.mem_cons_self)).2.2 rfl⟩
    have hspaced := List.IsChain.infix hsp hns
    have hdash := List.IsChain.infix (noDashes_text hspaced hnc) hd
    exact (List.isChain_cons_cons.1 hdash).1 ⟨rfl, rfl⟩

/-- A column keeps its quote, its dashes and its dollar sign inside quotes. -/
theorem compileExpr_vocabulary_minus :
    compileExpr (.unary .zero .minus (.unary .zero .minus (.property .zero "name")))
      ((Collection.new "lakes" ["name"] "geom").withProperty "name" "l.--\"$7;") {} =
        .ok ⟨"(-(-\"l\".\"--\"\"$7;\"))", []⟩ ∧
    ∃ ps, pieces "(-(-\"l\".\"--\"\"$7;\"))".toList = some ps ∧
      ps.flatMap Piece.text = "(-(-\"l\".\"--\"\"$7;\"))".toList ∧
      (∀ names, .chain names ∈ ps → chainText names = (quoteColumn "l.--\"$7;").toList) ∧
      ∀ cs, .plain cs ∈ ps → (∃ ws : List Word, cs = ws.flatMap Word.text) ∧
        '\'' ∉ cs ∧ ';' ∉ cs ∧ ¬['-', '-'] <:+: cs ∧ ¬['/', '*'] <:+: cs := by
  have h : compileExpr (.unary .zero .minus (.unary .zero .minus (.property .zero "name")))
      ((Collection.new "lakes" ["name"] "geom").withProperty "name" "l.--\"$7;") {} =
        .ok ⟨"(-(-\"l\".\"--\"\"$7;\"))", []⟩ := rfl
  obtain ⟨ps, hps, htext, hchain, hplain⟩ := compileExpr_vocabulary h
  refine ⟨h, ps, hps, htext, fun names hn => ?_, hplain⟩
  obtain ⟨property, hp, column, hr, _, hnames⟩ := hchain names hn
  cases List.mem_singleton.1 hp
  cases hr
  exact hnames

end FeatureFilter
