import Mathlib.Data.List.Forall2
import FeatureFilter.Proofs.Filter.Induction
import FeatureFilter.Proofs.Sql.Script

namespace FeatureFilter.Sql

namespace Draft

def outcome (d : Draft) (s : Script) : EStateM.Result Rejection Draft Unit :=
  match d.write s with
  | (none, d) => .ok () d
  | (some r, d) => .error r d

theorem outcome_of_none {s : Script} (d : Draft) (h : s.rejection = none) :
    d.outcome s = .ok () (s.items.foldl add d) := by
  rw [outcome, write, h]

theorem outcome_of_some {s : Script} (d : Draft) (h : s.rejection = some r) :
    d.outcome s = .error r (s.items.foldl add d) := by
  rw [outcome, write, h]

theorem outcome_append (d : Draft) {a : Script} (h : a.rejection = none) (b : Script) :
    d.outcome (a ++ b) = (a.items.foldl add d).outcome b := by
  rw [Script.append_of_none h, outcome, outcome, write, write, List.foldl_append]

end Draft

/-- A writing does to the drafts of a collection what a script says. -/
def Performs (c : Collection) (w : Writing Unit) (s : Script) : Prop :=
  ∀ d : Draft, d.collection = c → w.run d = d.outcome s

open Writing (push param)
open Script (tokens parens call commas append_assoc)

theorem Performs.pure (c : Collection) : Performs c (Pure.pure ()) (.write []) := fun _ _ => rfl

theorem Performs.throw (c : Collection) (r : Rejection) :
    Performs c (MonadExcept.throw r) (.reject r) := fun _ _ => rfl

theorem Performs.param (c : Collection) (v : Value) : Performs c (param v) (.bind v) :=
  fun _ _ => rfl

theorem Performs.token (c : Collection) (t : Token) : Performs c (push t.text) (tokens [t]) :=
  fun _ _ => rfl

theorem Performs.tokens {t : String} (c : Collection) (ts : List Token)
    (h : (ts.map Token.text).foldr (· ++ ·) "" = t) : Performs c (push t) (tokens ts) := by
  intro d hd
  subst h
  change EStateM.Result.ok () (d.push _) = .ok () ((ts.map Item.token).foldl Draft.add d)
  congr 1
  induction ts generalizing d with
  | nil => simp only [List.map_nil, List.foldr_nil, Draft.push, String.append_empty, List.foldl_nil]
  | cons t ts ih =>
    have hnext := ih (d.push t.text) hd
    simp only [Draft.push, String.append_assoc] at hnext
    exact hnext

theorem Performs.seq (hw : Performs c w s) (hw' : Performs c w' s') :
    Performs c (do w; w') (s ++ s') := by
  intro d hd
  have hfirst := hw d hd
  rw [EStateM.run] at hfirst
  change EStateM.bind w (fun _ => w') d = _
  rw [EStateM.bind, hfirst]
  -- What the first one has written before it fails stays, and the second one does not run.
  cases hs : s.rejection with
  | some r => rw [Script.append_of_some hs, d.outcome_of_some hs]
  | none =>
    rw [d.outcome_append hs, d.outcome_of_none hs]
    exact hw' _ ((d.foldl_add_collection _).trans hd)

theorem Writing.renderEach_eq_map (es : List Expr) :
    Writing.renderEach es = es.map Writing.render := by
  induction es with
  | nil => rfl
  | cons e es ih => rw [renderEach, ih, List.map_cons]

theorem performs_column (c : Collection) (property : String) :
    Performs c (Writing.column property) (column c property) := by
  intro d hd
  subst hd
  change (do
    let name ← MonadExcept.ofExcept (d.collection.resolve property)
    push (d.dialect.quoteColumn name) : Writing Unit).run d = _
  rw [column]
  cases d.collection.resolve property with
  | ok name => rfl
  | error r => rfl

theorem performs_literal (c : Collection) (l : Literal) :
    Performs c (Writing.literal l) (literal l) := by
  cases l with
  | null => exact .token c .null
  | boolean b =>
    cases b with
    | true => exact .token c (.bool true)
    | false => exact .token c (.bool false)
  | integer | number | string | timestamp | date => exact .param c _

theorem performs_list (h : Performs c w s) (hs : List.Forall₂ (Performs c) ws ss) :
    Performs c (Writing.list (w :: ws)) (commas (s :: ss)) := by
  have hrest : Performs c (ws.forM fun w => do push ", "; w) (Script.behind ss) := by
    clear h
    induction hs with
    | nil => exact fun _ _ => rfl
    | cons hw _ ih => exact ((Performs.token c .comma).seq hw).seq ih
  rw [Script.commas_cons]
  exact h.seq hrest

theorem performs_operator (t : Token) (hw : Performs c w s) (hw' : Performs c w' s') :
    Performs c (do push "("; w; push t.text; w'; push ")") (parens (s ++ tokens [t] ++ s')) := by
  simp only [parens, append_assoc]
  exact (Performs.token c .lparen).seq (hw.seq ((Performs.token c t).seq
    (hw'.seq (.token c .rparen))))

theorem performs_spatial (op : SpatialOp) (left right : Expr) (hw : Performs c w s)
    (hw' : Performs c w' s') :
    Performs c (Writing.spatial op left right w w') (spatial op left right s s') := by
  have hcall {v v' : Writing Unit} {t t' : Script} (hv : Performs c v t) (hv' : Performs c v' t') :
      Performs c (do push (spatialFunction op); push "("; v; push ", "; v'; push ")")
        (call (.spatial op) [t, t']) := by
    simp only [call, parens, commas, append_assoc]
    exact (Performs.token c (.spatial op)).seq ((Performs.token c .lparen).seq
      (hv.seq ((Performs.token c .comma).seq (hv'.seq (.token c .rparen)))))
  rw [Writing.spatial, spatial]
  cases !left.isProperty && right.isProperty with
  | true => exact hcall hw' hw
  | false => exact hcall hw hw'

theorem performs_distanceWithin (h₁ : Performs c w₁ s₁) (h₂ : Performs c w₂ s₂)
    (h₃ : Performs c w₃ s₃) :
    Performs c (Writing.distanceWithin w₁ w₂ w₃)
      (call .distanceWithin [s₁ ++ tokens [.geography], s₂ ++ tokens [.geography], s₃]) := by
  have hopen : Performs c (push "ST_DWithin(") (tokens [.distanceWithin, .lparen]) :=
    .tokens c _ rfl
  have hmid : Performs c (push "::geography, ") (tokens [.geography, .comma]) := .tokens c _ rfl
  simp only [call, parens, commas, append_assoc, Script.tokens_append_append,
    List.singleton_append]
  exact hopen.seq (h₁.seq (hmid.seq (h₂.seq (hmid.seq (h₃.seq (.token c .rparen))))))

theorem performs_function (name : FunctionName) (args : List Expr)
    (h : List.Forall₂ (Performs c) ws ss) :
    Performs c (Writing.function name args ws) (function name args ss) := by
  cases name with
  | other name => exact .throw c _
  | spatial op =>
    rcases args with _ | ⟨left, _ | ⟨right, args⟩⟩
    · exact .throw c _
    · exact .throw c _
    · cases h with
      | nil => exact .throw c _
      | cons hleft h =>
        cases h with
        | nil => exact .throw c _
        | cons hright => exact performs_spatial op left right hleft hright
  | distanceWithin =>
    cases h with
    | nil => exact .throw c _
    | cons h₁ h =>
      cases h with
      | nil => exact .throw c _
      | cons h₂ h =>
        cases h with
        | nil => exact .throw c _
        | cons h₃ => exact performs_distanceWithin h₁ h₂ h₃

theorem performs_geometry (c : Collection) (wkt : String) :
    Performs c (Writing.geometry wkt) (geometry wkt) := by
  have hopen : Performs c (push "ST_GeomFromText(") (tokens [.geometryFromText, .lparen]) :=
    .tokens c _ rfl
  have hclose : Performs c (push ", 4326)") (tokens [.comma, .srid, .rparen]) := .tokens c _ rfl
  simp only [geometry, call, parens, commas, append_assoc, Script.tokens_append_append,
    Script.tokens_append, List.cons_append, List.nil_append]
  exact hopen.seq ((Performs.param c (.text wkt)).seq hclose)

theorem performs_advanced (op : AdvancedOp) (negated : Bool)
    (h : List.Forall₂ (Performs c) ws ss) :
    Performs c (Writing.advanced op negated ws) (advanced op negated ss) := by
  have hlength := h.length_eq
  cases op with
  | like =>
    have hlike : Performs c (push ((if negated then " NOT" else "") ++ " LIKE "))
        (tokens [.like negated]) := by
      cases negated <;> exact .tokens c _ rfl
    rcases h with _ | ⟨hsubject, _ | ⟨hpattern, _ | ⟨hthird, hmore⟩⟩⟩
    · exact .throw c _
    · exact .throw c _
    · simp only [advanced, parens, append_assoc]
      exact (Performs.token c .lparen).seq (hsubject.seq (hlike.seq
        (hpattern.seq (.token c .rparen))))
    · simp only [Writing.advanced, advanced, hlength]
      exact .throw c _
  | between =>
    have hbetween : Performs c (push ((if negated then " NOT" else "") ++ " BETWEEN "))
        (tokens [.between negated]) := by
      cases negated <;> exact .tokens c _ rfl
    rcases h with _ | ⟨hsubject, _ | ⟨hlow, _ | ⟨hhigh, _ | ⟨hfourth, hmore⟩⟩⟩⟩
    · exact .throw c _
    · exact .throw c _
    · exact .throw c _
    · simp only [advanced, parens, append_assoc]
      exact (Performs.token c .lparen).seq (hsubject.seq (hbetween.seq (hlow.seq
        ((Performs.token c .and).seq (hhigh.seq (.token c .rparen))))))
    · simp only [Writing.advanced, advanced, hlength]
      exact .throw c _
  | isIn =>
    have hin : Performs c (push ((if negated then " NOT" else "") ++ " IN ("))
        (tokens [.isIn negated, .lparen]) := by
      cases negated <;> exact .tokens c _ rfl
    rcases h with _ | ⟨hsubject, _ | ⟨hfirst, hrest⟩⟩
    · exact .throw c _
    · exact .throw c _
    · have hclose : Performs c (push "))") (tokens [.rparen, .rparen]) := .tokens c _ rfl
      simp only [advanced, parens, append_assoc, Script.tokens_append_append,
        Script.tokens_append, List.singleton_append]
      exact (Performs.token c .lparen).seq (hsubject.seq (hin.seq
        ((performs_list hfirst hrest).seq hclose)))

theorem performs_box (exprs : List Expr) (h : ∀ e ∈ exprs, Performs c (w e) (s e)) :
    Performs c (Writing.box exprs (exprs.map w)) (box exprs (exprs.map s)) := by
  rw [Writing.box, box, corners_map, corners_map]
  cases hc : corners exprs with
  | none => exact .throw c _
  | some kept =>
    obtain ⟨west, south, east, north, rfl, hkept⟩ := corners_eq_some hc
    simp only [Option.map_some]
    cases exprs.find? (!isNumeric ·) with
    | some e => exact .throw c _
    | none =>
      -- The renderer puts a comma behind each corner, the script puts one between its arguments.
      have hcorner (e : Expr) (he : e ∈ [west, south, east, north]) :
          Performs c (do w e; push ", ") (s e ++ tokens [.comma]) :=
        (h e (hkept e he)).seq (.token c .comma)
      have hopen : Performs c (push "ST_MakeEnvelope(") (tokens [.envelope, .lparen]) :=
        .tokens c _ rfl
      have hclose : Performs c (push "4326)") (tokens [.srid, .rparen]) := .tokens c _ rfl
      have hcorners := (hcorner west (by simp)).seq ((hcorner south (by simp)).seq
        ((hcorner east (by simp)).seq ((hcorner north (by simp)).seq (.pure c))))
      have hbox := hopen.seq (hcorners.seq hclose)
      simp only [append_assoc, Script.nil_append] at hbox
      simp only [List.map_cons, List.map_nil, List.cons_append, List.nil_append, call, parens,
        commas, append_assoc, Script.tokens_append_append, Script.tokens_append]
      exact hbox

theorem renderEach_performs (h : ∀ e ∈ es, Performs c (Writing.render e) (render c e)) :
    List.Forall₂ (Performs c) (Writing.renderEach es) (renderEach c es) := by
  induction es with
  | nil => exact .nil
  | cons e es ih =>
    obtain ⟨he, hes⟩ := List.forall_mem_cons.1 h
    exact .cons he (ih hes)

/-- The renderer does arm by arm what the script of a filter says. -/
theorem performs_render (c : Collection) (e : Expr) :
    Performs c (Writing.render e) (render c e) := by
  induction e with
  | binary s op left right hl hr =>
    cases op with
    | and => exact performs_operator .and hl hr
    | or => exact performs_operator .or hl hr
    | comparison op => exact performs_operator (.comparison op) hl hr
    | spatial op => exact performs_spatial op left right hl hr
    | arithmetic op => exact .throw c _
  | call s name args ih => exact performs_function name args (renderEach_performs ih)
  | advanced s op negated args ih => exact performs_advanced op negated (renderEach_performs ih)
  | property s name => exact performs_column c name
  | literal s value => exact performs_literal c value
  | geometry s value => exact performs_geometry c _
  | geometries s members => exact performs_geometry c _
  | box s items ih =>
    have hbox := performs_box items ih
    rw [← Writing.renderEach_eq_map, ← renderEach_eq_map] at hbox
    exact hbox
  | unary s op operand ih =>
    cases op with
    | not =>
      have hopen : Performs c (push "(NOT (") (tokens [.lparen, .not, .lparen]) := .tokens c _ rfl
      have hclose : Performs c (push "))") (tokens [.rparen, .rparen]) := .tokens c _ rfl
      simp only [render, parens, append_assoc, Script.tokens_append_append, Script.tokens_append,
        List.cons_append, List.nil_append]
      exact hopen.seq (ih.seq hclose)
    | minus =>
      have hopen : Performs c (push "(-") (tokens [.lparen, .minus]) := .tokens c _ rfl
      simp only [render, parens, append_assoc, Script.tokens_append_append, List.cons_append,
        List.nil_append]
      exact hopen.seq (ih.seq (.token c .rparen))
  | group s inner ih =>
    simp only [render, parens, append_assoc]
    exact (Performs.token c .lparen).seq (ih.seq (.token c .rparen))
  | array s items ih =>
    cases items with
    | nil => exact .throw c _
    | cons first rest =>
      obtain ⟨hfirst, hrest⟩ := List.forall_mem_cons.1 ih
      have hlist := performs_list hfirst (renderEach_performs hrest)
      have hall := (Performs.token c .lparen).seq (hlist.seq (.token c .rparen))
      rw [← append_assoc] at hall
      exact hall
  | isNull s negated operand ih =>
    have hclose : Performs c (push (if negated then " IS NOT NULL)" else " IS NULL)"))
        (tokens [.isNull negated, .rparen]) := by
      cases negated <;> exact .tokens c _ rfl
    simp only [render, parens, append_assoc, Script.tokens_append, List.singleton_append]
    exact (Performs.token c .lparen).seq (ih.seq hclose)
  | interval s start stop _ _ => exact .throw c _
  | operator s token => exact .throw c _

/-- Rendering into a draft is the writing of the script for the collection of the draft. -/
theorem Draft.render_eq_write (d : Draft) (e : Expr) :
    d.render e = d.write (Sql.render d.collection e) := by
  rw [render, performs_render d.collection e d rfl, outcome]
  cases d.write (Sql.render d.collection e) with
  | mk rejection d' =>
    cases rejection with
    | none => rfl
    | some r => rfl

end FeatureFilter.Sql
