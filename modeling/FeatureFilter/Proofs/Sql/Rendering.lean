import Mathlib.Data.List.Forall2
import FeatureFilter.Compile
import FeatureFilter.Proofs.Filter.Induction
import FeatureFilter.Proofs.Sql.Outline
import FeatureFilter.Proofs.Sql.Writing

namespace FeatureFilter

namespace Sql

namespace Script

/-- A script writes marks as far as the first of some rejections. -/
structure Follows (s : Script) (ms : List Mark) (rs : List Rejection) : Prop where
  rejection : s.rejection = rs.head?
  written : s.marks <+: ms
  complete : rs = [] → s.marks = ms

theorem Follows.write (items : List Item) : (write items).Follows (items.map Item.mark) [] :=
  ⟨rfl, List.prefix_rfl, fun _ => rfl⟩

theorem Follows.tokens (ts : List Token) : (tokens ts).Follows (ts.map .token) [] := by
  have h := Follows.write (ts.map Item.token)
  rwa [List.map_map] at h

theorem Follows.reject (r : Rejection) : (reject r).Follows [] [r] :=
  ⟨rfl, List.prefix_rfl, fun _ => rfl⟩

theorem Follows.append (ha : Follows a ms rs) (hb : Follows b ns qs) :
    (a ++ b).Follows (ms ++ ns) (rs ++ qs) := by
  change (Script.append a b).Follows _ _
  cases rs with
  | cons r rs =>
    have he : a.rejection = some r := ha.rejection
    have hab : Script.append a b = a := by simp only [Script.append, he]
    rw [hab]
    exact ⟨he, ha.written.trans (List.prefix_append _ _),
      fun h => absurd h (List.cons_ne_nil _ _)⟩
  | nil =>
    have he : a.rejection = none := ha.rejection
    have hab : Script.append a b = ⟨a.items ++ b.items, b.rejection⟩ := append_of_none he b
    have hms : (Script.append a b).marks = ms ++ b.marks := by
      rw [hab, ← ha.complete rfl]
      exact List.map_append
    refine ⟨by rw [hab]; exact hb.rejection, ?_, fun h => ?_⟩
    · rw [hms]
      exact List.prefix_append_right_inj _ |>.2 hb.written
    · rw [hms, hb.complete h]

theorem Follows.token_append (t : Token) (h : Follows s ms rs) :
    (Script.tokens [t] ++ s).Follows (.token t :: ms) rs :=
  (Follows.tokens [t]).append h

theorem Follows.append_token (h : Follows s ms rs) (t : Token) :
    (s ++ Script.tokens [t]).Follows (ms ++ [.token t]) rs := by
  have ht := h.append (Follows.tokens [t])
  rwa [List.append_nil] at ht

theorem Follows.parens (h : Follows s ms rs) : s.parens.Follows (parenthesized ms) rs :=
  (h.token_append .lparen).append_token .rparen

theorem Follows.call (t : Token) (h : (commas ss).Follows ms rs) :
    (call t ss).Follows (.token t :: parenthesized ms) rs :=
  h.parens.token_append t

theorem Follows.join (ha : Follows a ms rs) (t : Token) (hb : Follows b ns qs) :
    (a ++ Script.tokens [t] ++ b).Follows (ms ++ .token t :: ns) (rs ++ qs) := by
  have h := (ha.append_token t).append hb
  rwa [List.append_assoc] at h

def Writes (s : Script) (o : Outline) : Prop := s.Follows o.marks o.rejections

theorem Writes.commas (h : Writes s o) (hs : List.Forall₂ Writes ss os) :
    (commas (s :: ss)).Follows (o.marks ++ Outline.marksBehind os)
      (o.rejections ++ Outline.rejectionsEach os) := by
  induction hs generalizing s o with
  | nil =>
    rw [Outline.marksBehind, Outline.rejectionsEach, List.append_nil, List.append_nil]
    exact h
  | cons h' _ ih => exact Follows.join h .comma (ih h')

end Script

open Script (Writes Follows)

theorem renderEach_writes (h : ∀ e ∈ es, (render c e).Writes (e.outline c)) :
    List.Forall₂ Writes (renderEach c es) (Expr.outlineEach c es) := by
  rw [renderEach_eq_map, Expr.outlineEach_eq_map, List.forall₂_map_left_iff,
    List.forall₂_map_right_iff, List.forall₂_same]
  exact h

theorem column_writes (c : Collection) (s : Text.Span) (name : String) :
    (column c name).Writes ((Expr.property s name).outline c) := by
  simp only [column, Expr.outline]
  cases c.resolve name with
  | ok column => exact Follows.write [.column column]
  | error r => exact Follows.reject r

theorem literal_writes (l : Literal) : (literal l).Writes (.ofLiteral l) := by
  cases l with
  | null => exact Follows.tokens [.null]
  | boolean b => exact Follows.tokens [.bool b]
  | integer n => exact Follows.write [.bind (.bigint n)]
  | number x => exact Follows.write [.bind (.double x)]
  | string s => exact Follows.write [.bind (.text s)]
  | timestamp t => exact Follows.write [.bind (.timestamp t)]
  | date d => exact Follows.write [.bind (.date d)]

theorem geometry_writes (wkt : String) : (geometry wkt).Writes .geometry :=
  Follows.call .geometryFromText
    ((Follows.write [.bind (.text wkt)]).join .comma (Follows.tokens [.srid]))

theorem spatial_writes (op : SpatialOp) (left right : Expr) (hl : Writes s o) (hr : Writes t p) :
    (spatial op left right s t).Writes (.ofSpatial op left right o p) := by
  unfold spatial Outline.ofSpatial
  split
  · exact Follows.call (.spatial op) (Follows.join hr .comma hl)
  · exact Follows.call (.spatial op) (Follows.join hl .comma hr)

theorem function_writes (name : FunctionName) (args : List Expr)
    (h : ∀ e ∈ args, (render c e).Writes (e.outline c)) :
    (function name args (renderEach c args)).Writes
      (.ofCall name args (Expr.outlineEach c args)) := by
  cases name with
  | other name => exact Follows.reject _
  | spatial op =>
    match args, h with
    | [], _ => exact Follows.reject _
    | [_], _ => exact Follows.reject _
    | left :: right :: _, h =>
      exact spatial_writes op left right (h left (by simp)) (h right (by simp))
  | distanceWithin =>
    match args, h with
    | [], _ => exact Follows.reject _
    | [_], _ => exact Follows.reject _
    | [_, _], _ => exact Follows.reject _
    | first :: second :: distance :: _, h =>
      have h₁ := Follows.append_token (h first (by simp)) .geography
      have h₂ := Follows.append_token (h second (by simp)) .geography
      exact Follows.call .distanceWithin (h₁.join .comma (h₂.join .comma (h distance (by simp))))

theorem advanced_writes (op : AdvancedOp) (negated : Bool) (args : List Expr)
    (h : ∀ e ∈ args, (render c e).Writes (e.outline c)) :
    (advanced op negated (renderEach c args)).Writes
      (.ofAdvanced op negated (Expr.outlineEach c args)) := by
  have hlen : (renderEach c args).length = (Expr.outlineEach c args).length := by
    rw [renderEach_eq_map, Expr.outlineEach_eq_map, List.length_map, List.length_map]
  cases op with
  | like =>
    rcases args with _ | ⟨subject, _ | ⟨pattern, _ | ⟨third, more⟩⟩⟩
    · exact Follows.reject _
    · exact Follows.reject _
    · exact (Follows.join (h subject (by simp)) (.like negated) (h pattern (by simp))).parens
    · simp only [renderEach, advanced, Expr.outlineEach, Outline.ofAdvanced] at hlen ⊢
      rw [hlen]
      exact Follows.reject _
  | between =>
    rcases args with _ | ⟨subject, _ | ⟨low, _ | ⟨high, _ | ⟨fourth, more⟩⟩⟩⟩
    · exact Follows.reject _
    · exact Follows.reject _
    · exact Follows.reject _
    · have hs := Follows.join (h subject (by simp)) (.between negated) (h low (by simp))
      exact (hs.join .and (h high (by simp))).parens
    · simp only [renderEach, advanced, Expr.outlineEach, Outline.ofAdvanced] at hlen ⊢
      rw [hlen]
      exact Follows.reject _
  | isIn =>
    rcases args with _ | ⟨subject, _ | ⟨first, rest⟩⟩
    · exact Follows.reject _
    · exact Follows.reject _
    · have hrest : List.Forall₂ Writes (renderEach c rest) (Expr.outlineEach c rest) :=
        renderEach_writes (fun e he => h e (by simp [he]))
      have hlist := Writes.commas (h first (by simp)) hrest
      exact (Follows.join (h subject (by simp)) (.isIn negated) hlist.parens).parens

theorem box_writes (items : List Expr) (h : ∀ e ∈ items, (render c e).Writes (e.outline c)) :
    (box items (renderEach c items)).Writes (.ofBox items (Expr.outlineEach c items)) := by
  simp only [box, Outline.ofBox, renderEach_eq_map, Expr.outlineEach_eq_map, corners_map]
  cases hc : corners items with
  | none => exact Follows.reject _
  | some kept =>
    obtain ⟨west, south, east, north, rfl, hm⟩ := corners_eq_some hc
    simp only [Option.map_some, List.map_cons, List.map_nil]
    cases items.find? (!isNumeric ·) with
    | some e => exact Follows.reject _
    | none =>
      have hw := fun e he => h e (hm e he)
      have hn := Follows.join (hw north (by simp)) .comma (Follows.tokens [.srid])
      have he := Follows.join (hw east (by simp)) .comma hn
      have hs := Follows.join (hw south (by simp)) .comma he
      have hb := Follows.join (hw west (by simp)) .comma hs
      rw [List.append_nil] at hb
      exact Follows.call .envelope hb

/-- A filter is written as its normal form says. -/
theorem render_writes (c : Collection) (e : Expr) : (render c e).Writes (e.outline c) := by
  induction e with
  | binary s op left right hl hr =>
    cases op with
    | and => exact (Follows.join hl .and hr).parens
    | or => exact (Follows.join hl .or hr).parens
    | comparison op => exact (Follows.join hl (.comparison op) hr).parens
    | spatial op => exact spatial_writes op left right hl hr
    | arithmetic op => exact Follows.reject _
  | call s name args ih => exact function_writes name args ih
  | advanced s op negated args ih => exact advanced_writes op negated args ih
  | property s name => exact column_writes c s name
  | literal s value => exact literal_writes value
  | geometry s value => exact geometry_writes _
  | geometries s members => exact geometry_writes _
  | box s items ih => exact box_writes items ih
  | unary s op operand ih =>
    cases op with
    | not => exact (Follows.parens ih |>.token_append .not).parens
    | minus => exact (Follows.token_append .minus ih).parens
  | group s inner ih =>
    have h := Writes.commas ih .nil
    exact h.parens
  | array s items ih =>
    match items, ih with
    | [], _ => exact Follows.reject _
    | first :: rest, ih =>
      have hrest : List.Forall₂ Writes (renderEach c rest) (Expr.outlineEach c rest) :=
        renderEach_writes (fun e he => ih e (by simp [he]))
      exact (Writes.commas (ih first (by simp)) hrest).parens
  | isNull s negated operand ih => exact (Follows.append_token ih (.isNull negated)).parens
  | interval s start stop _ _ => exact Follows.reject _
  | operator s token => exact Follows.reject _

theorem render_rejection (c : Collection) (e : Expr) :
    (render c e).rejection = (e.outline c).rejections.head? :=
  (render_writes c e).rejection

theorem render_marks (h : (e.outline c).rejections = []) :
    (render c e).marks = (e.outline c).marks :=
  (render_writes c e).complete h

theorem Draft.render_eq {d : Draft} (h : d.dialect = .postgres) (e : Expr) :
    d.render e = ((e.outline d.collection).rejections.head?, { d with
      sql := d.sql ++ .ofList (text (d.offset + d.params.length) (Sql.render d.collection e).marks)
      params := d.params ++ (Sql.render d.collection e).values }) := by
  rw [d.render_eq_write, write_eq h, render_rejection]

theorem Draft.empty_render (c : Collection) (k : Nat) (e : Expr) :
    (Draft.empty c k).render e = ((e.outline c).rejections.head?,
      ⟨c, .postgres, k, .ofList (text k (Sql.render c e).marks), (Sql.render c e).values⟩) := by
  rw [render_eq rfl]
  simp only [empty, String.empty_append, List.nil_append, List.length_nil, Nat.add_zero]

theorem Draft.sql_render (h : (e.outline c).rejections = []) (k : Nat) :
    ((Draft.empty c k).render e).2.sql = .ofList (text k (e.outline c).marks) := by
  rw [empty_render, render_marks h]

end Sql

open Sql

/-- The outcome of a compilation: the depth is looked at first, then the normal form. -/
theorem compileExpr_eq (e : Expr) (c : Collection) (options : Options) :
    compileExpr e c options =
      match options.maxDepth.filter (· < e.depth), (e.outline c).rejections.head? with
      | some limit, _ => .error (.tooDeep e.depth limit)
      | none, some r => .error r
      | none, none =>
        .ok (.of (.ofList (text options.paramOffset (e.outline c).marks)) (render c e).values) := by
  simp only [compileExpr, Draft.empty_render]
  cases options.maxDepth.filter (· < e.depth) with
  | some limit => rfl
  | none =>
    cases hr : (e.outline c).rejections with
    | cons r rs => rfl
    | nil => simp only [List.head?_nil, render_marks hr]

theorem compileExpr_ok (h : compileExpr e c options = .ok f) :
    (e.outline c).rejections = [] ∧ f.params = (render c e).values ∧
      f = .of (.ofList (text options.paramOffset (e.outline c).marks)) f.params := by
  rw [compileExpr_eq] at h
  split at h
  · cases h
  · cases h
  · rename_i hr
    cases h
    exact ⟨List.head?_eq_none_iff.1 hr, rfl, rfl⟩

theorem text_parenthesized (k : Nat) (ms : List Mark) :
    text k (parenthesized ms) = '(' :: (text k ms ++ [')']) := by
  rw [parenthesized, List.cons_append, text, text_append]
  rfl

theorem holes_parenthesized (ms : List Mark) : holes (parenthesized ms) = holes ms := by
  simp [holes, parenthesized]

/-- A fragment has the marks of the normal form, in parentheses if they have none around them. -/
theorem compileExpr_marks (h : compileExpr e c options = .ok f) :
    ∃ ms, (ms = (e.outline c).marks ∨ ms = parenthesized (e.outline c).marks) ∧
      f.sql.toList = text options.paramOffset ms ∧ f.params.length = holes ms := by
  obtain ⟨hr, hp, hf⟩ := compileExpr_ok h
  have hlen : f.params.length = holes (e.outline c).marks := by
    rw [hp, Script.length_values, render_marks hr]
  have hsql := congrArg Fragment.sql hf
  simp only [Fragment.of] at hsql
  split at hsql
  · exact ⟨_, .inl rfl, by rw [hsql, String.toList_ofList], hlen⟩
  · refine ⟨_, .inr rfl, ?_, by rw [holes_parenthesized, hlen]⟩
    simp [hsql, text_parenthesized]

end FeatureFilter
