import Mathlib.Data.List.TakeWhile
import FeatureFilter.Proofs.Sql.Framing
import FeatureFilter.Proofs.Sql.Rendering
import FeatureFilter.Proofs.Sql.Spacing

namespace FeatureFilter

namespace Sql

/-- Whether the end of a text stands inside a quoted name, if its beginning does or does not. -/
def quotedAfter (quoted : Bool) : List Char → Bool
  | [] => quoted
  | c :: cs => quotedAfter (if c = '"' then !quoted else quoted) cs

/-- The placeholders outside quoted names from left to right: each dollar sign with all digits
behind it. -/
def placeholders (quoted : Bool) : List Char → List (List Char)
  | [] => []
  | c :: cs =>
    if c = '"' then placeholders (!quoted) cs
    else if c = '$' ∧ quoted = false then
      ('$' :: cs.takeWhile Char.isDigit) :: placeholders quoted cs
    else placeholders quoted cs

theorem takeWhile_append_of_head (p : α → Bool) (cs : List α) (h : ∀ ch ∈ ds.head?, p ch = false) :
    (cs ++ ds).takeWhile p = cs.takeWhile p := by
  induction cs with
  | nil =>
    cases ds with
    | nil => rfl
    | cons d ds => rw [List.nil_append, List.takeWhile_cons, h d rfl]; rfl
  | cons c cs ih =>
    rw [List.cons_append, List.takeWhile_cons, List.takeWhile_cons, ih]

/-- A text that does not go on with a digit leaves the placeholders before it as they are. -/
theorem placeholders_append (q : Bool) (cs : List Char)
    (h : ∀ ch ∈ ds.head?, ch.isDigit = false) :
    placeholders q (cs ++ ds) = placeholders q cs ++ placeholders (quotedAfter q cs) ds := by
  induction cs generalizing q with
  | nil => rfl
  | cons c cs ih =>
    by_cases hc : c = '"'
    · simp only [List.cons_append, placeholders, quotedAfter, if_pos hc, ih]
    · simp only [List.cons_append, placeholders, quotedAfter, if_neg hc, ih,
        takeWhile_append_of_head _ cs h]
      split
      · rfl
      · rfl

theorem quotedAfter_append (q : Bool) (cs ds : List Char) :
    quotedAfter q (cs ++ ds) = quotedAfter (quotedAfter q cs) ds := by
  induction cs generalizing q with
  | nil => rfl
  | cons c cs ih => rw [List.cons_append, quotedAfter, quotedAfter, ih]

theorem quotedAfter_of_not_mem (q : Bool) (h : '"' ∉ cs) : quotedAfter q cs = q := by
  induction cs with
  | nil => rfl
  | cons c cs ih =>
    obtain ⟨hc, hcs⟩ := not_or.1 (mt List.mem_cons.2 h)
    rw [quotedAfter, if_neg (Ne.symm hc), ih hcs]

theorem placeholders_of_not_mem (q : Bool) (hq : '"' ∉ cs) (hd : '$' ∉ cs) :
    placeholders q cs = [] := by
  induction cs with
  | nil => rfl
  | cons c cs ih =>
    obtain ⟨hc, hcs⟩ := not_or.1 (mt List.mem_cons.2 hq)
    obtain ⟨hc', hcs'⟩ := not_or.1 (mt List.mem_cons.2 hd)
    rw [placeholders, if_neg (Ne.symm hc), if_neg fun h => hc' h.1.symm, ih hcs hcs']

theorem placeholders_append_of_nil (h : placeholders q cs = []) (ds : List Char) :
    placeholders q (cs ++ ds) = placeholders (quotedAfter q cs) ds := by
  fun_induction placeholders q cs with
  | case1 => rfl
  | case2 q cs ih =>
    rw [List.cons_append, placeholders, if_pos rfl, ih h, quotedAfter, if_pos rfl]
  | case3 q c cs hc hd ih => cases h
  | case4 q c cs hc hd ih =>
    rw [List.cons_append, placeholders, if_neg hc, if_neg hd, ih h, quotedAfter, if_neg hc]

structure Shows (cs : List Char) (ps : List (List Char)) : Prop where
  closed : quotedAfter false cs = false
  shown : placeholders false cs = ps

theorem Shows.nil : Shows [] [] := ⟨rfl, rfl⟩

theorem Shows.of_not_mem (hq : '"' ∉ cs) (hd : '$' ∉ cs) : Shows cs [] :=
  ⟨quotedAfter_of_not_mem false hq, placeholders_of_not_mem false hq hd⟩

theorem Shows.append (hc : Shows cs ps) (hd : Shows ds qs)
    (h : ∀ ch ∈ ds.head?, ch.isDigit = false) : Shows (cs ++ ds) (ps ++ qs) :=
  ⟨by rw [quotedAfter_append, hc.closed, hd.closed],
    by rw [placeholders_append _ _ h, hc.shown, hc.closed, hd.shown]⟩

theorem Shows.nil_append (hc : Shows cs []) (hd : Shows ds qs) : Shows (cs ++ ds) qs :=
  ⟨by rw [quotedAfter_append, hc.closed, hd.closed],
    by rw [placeholders_append_of_nil hc.shown, hc.closed, hd.shown]⟩

theorem shows_quote (name : List Char) : Shows (Text.quote '"' name) [] := by
  have h (rest : List Char) : quotedAfter true (Text.double '"' name ++ '"' :: rest) =
        quotedAfter false rest ∧
      placeholders true (Text.double '"' name ++ '"' :: rest) = placeholders false rest := by
    induction name with
    | nil => exact ⟨rfl, rfl⟩
    | cons c name ih =>
      by_cases hc : c = '"'
      · simpa [Text.double, hc, quotedAfter, placeholders] using ih
      · simpa [Text.double, hc, quotedAfter, placeholders] using ih
  rw [← List.append_nil (Text.quote _ _), quote_append]
  exact ⟨(h []).1, (h []).2⟩

theorem shows_chainText (names : List (List Char)) : Shows (chainText names) [] := by
  induction names with
  | nil => exact .nil
  | cons name names ih =>
    by_cases hn : names = []
    · rw [hn, chainText_singleton]
      exact shows_quote name
    · rw [chainText_cons name hn]
      have hp : Shows ['.'] [] := ⟨rfl, rfl⟩
      exact (shows_quote name).nil_append (hp.nil_append ih)

theorem shows_placeholder (k : Nat) : Shows (placeholder k).toList [(placeholder k).toList] := by
  have hdigits : ∀ ch ∈ Nat.toDigits 10 (k + 1), ch.isDigit = true := fun ch =>
    Nat.isDigit_of_mem_toDigits (by decide) (by decide)
  have hq : '"' ∉ Nat.toDigits 10 (k + 1) := fun h => by cases hdigits _ h
  have hd : '$' ∉ Nat.toDigits 10 (k + 1) := fun h => by cases hdigits _ h
  rw [placeholder_toList]
  refine ⟨?_, ?_⟩
  · rw [quotedAfter, if_neg (by decide), quotedAfter_of_not_mem false hq]
  · rw [placeholders, if_neg (by decide), if_pos ⟨rfl, rfl⟩, placeholders_of_not_mem false hq hd,
      List.takeWhile_eq_self_iff.2 hdigits]

def numbered (k n : Nat) : List (List Char) :=
  (List.range n).map fun i => (placeholder (k + i)).toList

theorem numbered_add (k m n : Nat) : numbered k (m + n) = numbered k m ++ numbered (k + m) n := by
  simp only [numbered, List.range_add, List.map_append, List.map_map, Function.comp_def,
    Nat.add_assoc]

theorem numbered_one (k : Nat) : numbered k 1 = [(placeholder k).toList] := rfl

theorem shows_text (h : Spaced ms) : Shows (text k ms) (numbered k (holes ms)) := by
  induction ms generalizing k with
  | nil => exact .nil
  | cons m ms ih =>
    have ih {k : Nat} := ih (k := k) (List.IsChain.tail h)
    cases m with
    | token t =>
      have ht : Shows t.text.toList [] :=
        .of_not_mem (fun h => (t.mem_text _ h).1 rfl) (fun h => (t.mem_text _ h).2.1 rfl)
      exact ht.nil_append ih
    | column name =>
      rw [text, quoteColumn_toList]
      exact (shows_chainText _).nil_append ih
    | hole =>
      have hne : ms.head? ≠ some (.token .srid) := fun hm => List.IsChain.rel_head? h hm .digits
      have hn : numbered k (holes (.hole :: ms)) = numbered k 1 ++ numbered (k + 1) (holes ms) := by
        rw [← numbered_add, Nat.add_comm 1, holes, List.count_cons_self, holes]
      rw [hn, numbered_one]
      exact (shows_placeholder k).append ih (head?_text_of_ne_srid _ hne)

/-- A step that pushes no quote, no dollar sign and no digit. -/
def Step.Plain : Step → Prop
  | .push text => ∀ ch ∈ text.toList, ch ≠ '$' ∧ ch ≠ '"' ∧ ch.isDigit = false
  | .bind _ | .render _ => True

namespace Draft

/-- The placeholders of a draft are those of its parameters, in their order. -/
structure Numbered (d : Draft) : Prop where
  dialect : d.dialect = .postgres
  shows : Shows d.sql.toList (numbered d.offset d.params.length)

/-- A step makes a draft grow at its ends. A plain one shows the placeholders of the parameters that
it adds, and what it writes does not begin with a digit. -/
theorem step_eq {d : Draft} (h : d.dialect = .postgres) (s : Step) : ∃ cs vs,
    d.step s = { d with sql := d.sql ++ .ofList cs, params := d.params ++ vs } ∧
      (s.Plain → (∀ ch ∈ cs.head?, ch.isDigit = false) ∧
        Shows cs (numbered (d.offset + d.params.length) vs.length)) := by
  cases s with
  | push text =>
    refine ⟨text.toList, [], by simp [step, push], fun hs => ⟨?_, ?_⟩⟩
    · exact fun ch hch => (hs ch (List.mem_of_mem_head? hch)).2.2
    · exact .of_not_mem (fun h => (hs _ h).2.1 rfl) (fun h => (hs _ h).1 rfl)
  | bind v =>
    refine ⟨(placeholder (d.offset + d.params.length)).toList, [v],
      by simp [step, bind, h, Dialect.postgres], fun _ => ⟨fun ch hch => ?_, shows_placeholder _⟩⟩
    rw [placeholder_toList] at hch
    cases hch
    rfl
  | render e =>
    -- also a rendering that fails has written a beginning of the marks of the normal form
    have hw := (render_writes d.collection e).written
    have hsp := List.IsChain.prefix (Outline.spaced_marks (e.outline d.collection)) hw
    refine ⟨_, _, congrArg Prod.snd (render_eq h e), fun _ => ⟨?_, ?_⟩⟩
    · refine head?_text_of_ne_srid _ fun hm => ?_
      obtain ⟨ns, hns⟩ := hw
      have hhead := Outline.head?_marks (e.outline d.collection) (.token .srid)
      rw [← hns, List.head?_append, hm] at hhead
      exact (hhead rfl).2.2 rfl
    · rw [Script.length_values]
      exact shows_text hsp

theorem step_offset (d : Draft) (s : Step) : (d.step s).offset = d.offset := by
  rw [appends_step d s]
  rfl

theorem params_prefix_step (d : Draft) (s : Step) : d.params <+: (d.step s).params := by
  rw [appends_step d s]
  exact List.prefix_append _ _

theorem Numbered.step (h : Numbered d) (hs : s.Plain) : Numbered (d.step s) := by
  obtain ⟨cs, vs, he, hplain⟩ := step_eq h.dialect s
  obtain ⟨hhead, hshows⟩ := hplain hs
  have happ := Shows.append h.shows hshows hhead
  rw [← numbered_add] at happ
  rw [he]
  exact ⟨h.dialect, by simpa using happ⟩

theorem run_offset (d : Draft) (steps : List Step) : (d.run steps).offset = d.offset := by
  induction steps generalizing d with
  | nil => rfl
  | cons s steps ih => exact (ih (d.step s)).trans (d.step_offset s)

theorem params_prefix_run (d : Draft) (steps : List Step) : d.params <+: (d.run steps).params := by
  induction steps generalizing d with
  | nil => exact List.prefix_rfl
  | cons s steps ih => exact (d.params_prefix_step s).trans (ih (d.step s))

/-- Every run of plain steps keeps the placeholders in the order of the parameters. -/
theorem Numbered.run (h : Numbered d) (hs : ∀ s ∈ steps, s.Plain) : Numbered (d.run steps) := by
  induction steps generalizing d with
  | nil => exact h
  | cons s steps ih =>
    obtain ⟨hs, hsteps⟩ := List.forall_mem_cons.1 hs
    exact ih (h.step hs) hsteps

end Draft
end Sql

open Sql

/-- The placeholders outside quoted names are `k + 1`, `k + 2` and so on, one for each parameter:
at every point of a run from an empty draft, whose parameters stay the first ones, and in every
fragment. -/
theorem placeholders_eq_numbered (c : Collection) (k : Nat) :
    (∀ steps : List Step, (∀ s ∈ steps, s.Plain) → ∀ before after, steps = before ++ after →
      placeholders false ((Draft.empty c k).run before).sql.toList =
        numbered k ((Draft.empty c k).run before).params.length ∧
      ((Draft.empty c k).run before).params <+: ((Draft.empty c k).run steps).params) ∧
    ∀ e options f, options.paramOffset = k → compileExpr e c options = .ok f →
      placeholders false f.sql.toList = numbered k f.params.length := by
  refine ⟨fun steps hs before after he => ?_, fun e options f hk h => ?_⟩
  · have hempty : (Draft.empty c k).Numbered := ⟨rfl, .nil⟩
    have hrun := hempty.run fun s hm => hs s (he ▸ List.mem_append_left after hm)
    have hshown := hrun.shows.shown
    rw [Draft.run_offset] at hshown
    refine ⟨hshown, ?_⟩
    have hsplit : (Draft.empty c k).run steps = ((Draft.empty c k).run before).run after := by
      rw [he, Draft.run, List.foldl_append]
      rfl
    rw [hsplit]
    exact Draft.params_prefix_run _ _
  · obtain ⟨ms, hms, hsql, hlen⟩ := compileExpr_marks h
    have hsp := Outline.spaced_of_eq hms
    rw [hsql, hlen, hk]
    exact (shows_text hsp).shown

/-- A run with a rendering that fails behind its first value, and a column with a dollar sign. -/
theorem placeholders_eq_numbered_failed_render :
    (∀ s ∈ [Step.push "WHERE ", .render (.array .zero [.literal .zero (.string "$1"),
      .operator .zero "and"]), .bind (.bigint 5), .render (.property .zero "name")], s.Plain) ∧
    ((Draft.empty ((Collection.new "lakes" ["name"] "geom").withProperty "name" "a\"$9") 2).run
      [.push "WHERE ", .render (.array .zero [.literal .zero (.string "$1"),
        .operator .zero "and"]), .bind (.bigint 5), .render (.property .zero "name")]).sql =
          "WHERE ($3, $4\"a\"\"$9\"" ∧
    placeholders false "WHERE ($3, $4\"a\"\"$9\"".toList = ["$3".toList, "$4".toList] ∧
    compileExpr (.isNull .zero true (.literal .zero (.string "$1")))
      ((Collection.new "lakes" ["name"] "geom").withProperty "name" "a\"$9") { paramOffset := 2 } =
        .ok ⟨"($3 IS NOT NULL)", [.text "$1"]⟩ ∧
    placeholders false "($3 IS NOT NULL)".toList = ["$3".toList] := by
  have hplain : ∀ s ∈ [Step.push "WHERE ", .render (.array .zero [.literal .zero (.string "$1"),
      .operator .zero "and"]), .bind (.bigint 5), .render (.property .zero "name")], s.Plain := by
    simp [Step.Plain]
  obtain ⟨hruns, hfragments⟩ := placeholders_eq_numbered
    ((Collection.new "lakes" ["name"] "geom").withProperty "name" "a\"$9") 2
  have hrun := hruns _ hplain _ [] (List.append_nil _).symm
  have hfragment := hfragments (.isNull .zero true (.literal .zero (.string "$1")))
    { paramOffset := 2 } ⟨"($3 IS NOT NULL)", [.text "$1"]⟩ rfl rfl
  exact ⟨hplain, rfl, hrun.1, rfl, hfragment⟩

end FeatureFilter
