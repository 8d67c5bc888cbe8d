import FeatureFilter.Proofs.Sql.Writing

namespace FeatureFilter.Sql

inductive Step where
  | push (text : String)
  | bind (v : Value)
  | render (e : Expr)

namespace Draft

/-- A step; what a failed rendering has written stays. -/
def step (d : Draft) : Step → Draft
  | .push text => d.push text
  | .bind v => d.bind v
  | .render e => (d.render e).2

def run (d : Draft) (steps : List Step) : Draft := steps.foldl step d

/-- A draft with the text and the values of another one behind its own. -/
def followedBy (d more : Draft) : Draft :=
  { d with sql := d.sql ++ more.sql, params := d.params ++ more.params }

/-- The empty draft whose first placeholder is the next one of a draft. -/
def onward (d : Draft) : Draft := .empty d.collection (d.offset + d.params.length) d.dialect

theorem followedBy_onward (d : Draft) : d.followedBy d.onward = d := by
  simp only [followedBy, onward, empty, String.append_empty, List.append_nil]

theorem followedBy_assoc (d more rest : Draft) :
    (d.followedBy more).followedBy rest = d.followedBy (more.followedBy rest) := by
  simp only [followedBy, String.append_assoc, List.append_assoc]

/-- What is done to a draft is done to the empty one onward from it, and the result put behind. -/
def Appends (f : Draft → α → Draft) : Prop := ∀ d a, f d a = d.followedBy (f d.onward a)

theorem appends_push : Appends push := by
  intro d text
  simp only [push, followedBy, onward, empty, String.empty_append, List.append_nil]

theorem appends_bind : Appends bind := by
  intro d v
  simp only [bind, followedBy, onward, empty, String.empty_append, List.nil_append,
    List.length_nil, Nat.add_zero]

theorem appends_add : Appends add := by
  intro d i
  cases i with
  | token t => exact appends_push d t.text
  | column name => exact appends_push d _
  | bind v => exact appends_bind d v

theorem Appends.onward_eq {f : Draft → α → Draft} (hf : Appends f) (d : Draft) (a : α) :
    (f d a).onward = (f d.onward a).onward := by
  have hmore := hf d.onward a
  rw [hf d a, hmore]
  simp only [onward, followedBy, empty, List.length_append, List.nil_append, Nat.add_assoc,
    List.length_nil, Nat.add_zero]

theorem Appends.foldl {f : Draft → α → Draft} (hf : Appends f) :
    Appends fun d as => List.foldl f d as := by
  intro d as
  induction as generalizing d with
  | nil => exact d.followedBy_onward.symm
  | cons a as ih =>
    -- Both runs go on from drafts with the same numbers to come.
    calc as.foldl f (f d a)
      _ = (f d a).followedBy (as.foldl f (f d.onward a).onward) := by
        rw [← hf.onward_eq]
        exact ih (f d a)
      _ = d.followedBy ((f d.onward a).followedBy (as.foldl f (f d.onward a).onward)) := by
        rw [← followedBy_assoc, ← hf d a]
      _ = d.followedBy (as.foldl f (f d.onward a)) := by rw [← ih (f d.onward a)]

theorem render_onward (d : Draft) (e : Expr) :
    d.render e = ((d.onward.render e).1, d.followedBy (d.onward.render e).2) := by
  rw [render_eq_write, render_eq_write]
  exact Prod.ext rfl (appends_add.foldl d (Sql.render d.collection e).items)

theorem appends_step : Appends step := by
  intro d s
  cases s with
  | push text => exact appends_push d text
  | bind v => exact appends_bind d v
  | render e => exact congrArg Prod.snd (d.render_onward e)

/-- A filter is written behind what a draft has as it is into an empty draft whose numbers go on
from those of the draft, up to the same rejection. So two filters with a text between them are
written one after the other, and any run of steps is. -/
theorem render_frame (d : Draft) :
    (∀ e : Expr,
      let alone := (Draft.empty d.collection (d.offset + d.params.length) d.dialect).render e
      d.render e = (alone.1, { d with
        sql := d.sql ++ alone.2.sql, params := d.params ++ alone.2.params })) ∧
    (∀ (e : Expr) (text : String) (e' : Expr),
      let first := (Draft.empty d.collection (d.offset + d.params.length) d.dialect).render e
      let second := (Draft.empty d.collection
        (d.offset + d.params.length + first.2.params.length) d.dialect).render e'
      ((d.render e).2.push text).render e' = (second.1, { d with
        sql := d.sql ++ (first.2.sql ++ text ++ second.2.sql)
        params := d.params ++ (first.2.params ++ second.2.params) })) ∧
    ∀ steps : List Step,
      let alone := (Draft.empty d.collection (d.offset + d.params.length) d.dialect).run steps
      d.run steps = { d with
        sql := d.sql ++ alone.sql, params := d.params ++ alone.params } := by
  refine ⟨d.render_onward, ?_, appends_step.foldl d⟩
  intro e text e' first second
  have hfirst : (d.render e).2 = d.followedBy first.2 := congrArg Prod.snd (d.render_onward e)
  have hnext : ((d.render e).2.push text).onward =
      .empty d.collection (d.offset + d.params.length + first.2.params.length) d.dialect := by
    rw [hfirst, onward]
    simp only [push, followedBy, List.length_append, Nat.add_assoc]
  rw [render_onward, hnext, hfirst]
  simp only [followedBy, push, String.append_assoc, List.append_assoc, second]

end Draft
end FeatureFilter.Sql
