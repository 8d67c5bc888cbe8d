import FeatureFilter.Proofs.Filter.Changes
import FeatureFilter.Proofs.Filter.Induction
import FeatureFilter.Proofs.Grammar.Brackets

namespace FeatureFilter

open Grammar (Rule ParseTree)
namespace Expr

mutual

def unplaced : Expr → Expr
  | .binary _ op left right => .binary .zero op left.unplaced right.unplaced
  | .call _ name args => .call .zero name (unplacedEach args)
  | .advanced _ op negated args => .advanced .zero op negated (unplacedEach args)
  | .property _ name => .property .zero name
  | .literal _ value => .literal .zero value
  | .geometry _ value => .geometry .zero value
  | .geometries _ members => .geometries .zero members
  | .box _ items => .box .zero (unplacedEach items)
  | .unary _ op operand => .unary .zero op operand.unplaced
  | .group _ inner => .group .zero inner.unplaced
  | .array _ items => .array .zero (unplacedEach items)
  | .isNull _ negated operand => .isNull .zero negated operand.unplaced
  | .interval _ start stop => .interval .zero start.unplaced stop.unplaced
  | .operator _ token => .operator .zero token

def unplacedEach : List Expr → List Expr
  | [] => []
  | e :: es => e.unplaced :: unplacedEach es

end

theorem unplacedEach_eq_map (es : List Expr) : unplacedEach es = es.map unplaced := by
  induction es with
  | nil => rfl
  | cons e es ih => rw [unplacedEach, ih, List.map_cons]

theorem unplaced_ofGeometry (s : Text.Span) (g : Geometry) :
    (ofGeometry s g).unplaced = ofGeometry .zero g := by
  cases g <;> rfl

theorem changedEach_zero (h : ∀ e ∈ es, e.changed (fun _ => .zero) id = e.unplaced) :
    changedEach (fun _ => .zero) id es = unplacedEach es := by
  induction es with
  | nil => rfl
  | cons e es ih =>
    obtain ⟨he, hes⟩ := List.forall_mem_cons.1 h
    rw [changedEach, unplacedEach, he, ih hes]

theorem changed_zero (e : Expr) : e.changed (fun _ => .zero) id = e.unplaced := by
  induction e using Expr.inductionOn with
  | binary _ _ _ _ ihl ihr => rw [changed, unplaced, ihl, ihr]
  | call _ _ _ ih => rw [changed, unplaced, changedEach_zero ih]
  | advanced _ _ _ _ ih => rw [changed, unplaced, changedEach_zero ih]
  | box _ _ ih => rw [changed, unplaced, changedEach_zero ih]
  | array _ _ ih => rw [changed, unplaced, changedEach_zero ih]
  | unary _ _ _ ih => rw [changed, unplaced, ih]
  | group _ _ ih => rw [changed, unplaced, ih]
  | isNull _ _ _ ih => rw [changed, unplaced, ih]
  | interval _ _ _ ihs iht => rw [changed, unplaced, ihs, iht]
  | property | literal | geometry | geometries | operator => rfl

end Expr

namespace Grammar.ParseTree

theorem changedEach_zero {ts : List (ParseTree Rule)}
    (h : ∀ t ∈ ts, t.changed (fun _ => .zero) (fun _ => id) = t.unplaced) :
    changedEach (fun _ => .zero) (fun _ => id) ts = unplacedEach ts := by
  induction ts with
  | nil => rfl
  | cons t ts ih =>
    obtain ⟨ht, hts⟩ := List.forall_mem_cons.1 h
    rw [changedEach, unplacedEach, ht, ih hts]

theorem changed_zero (t : ParseTree Rule) :
    t.changed (fun _ => .zero) (fun _ => id) = t.unplaced := by
  induction t using ParseTree.inductionOn with
  | token => rfl
  | node r s children ih => rw [changed, unplaced, changedEach_zero ih]

end Grammar.ParseTree

namespace OfText

def unplacing : Change where
  place := fun _ => .zero
  lexeme := fun _ => id
  rename := id
  error := fun e => .unplaced e.defect
  error_fail := fun _ _ => rfl
  string := fun _ => rfl
  identifier := fun _ => rfl
  quotedIdentifier := fun _ => rfl
  functionName := fun _ => rfl
  operator := fun _ _ => rfl

theorem expr_unplaced (t : ParseTree Rule) :
    (expr t.unplaced).toOption = (expr t).toOption.map Expr.unplaced := by
  have hcounts : unplacing.Counts t := by
    have hnumeral (s : Text.Span) (cs : List Char) :
        numeral .zero cs = unplacing.result id (numeral s cs) :=
      Change.result_orFail (k := unplacing) s _ _
    refine ⟨fun _ s cs _ _ => hnumeral s cs, ?_, ?_⟩
    · intro s ts _ u _
      cases u with
      | token _ _ cs =>
        apply Change.result_bind (hnumeral s cs)
        intro l
        exact Change.result_orFail (k := unplacing) s _ _
      | node => rfl
    · intro r s ts _ _ u _
      cases u with
      | token => exact Change.result_orFail (k := unplacing) s _ _
      | node => rfl
  have h : expr t.unplaced = unplacing.result unplacing.filter (expr t) := by
    rw [← t.changed_zero]
    exact Change.expr_tree hcounts
  rw [h]
  cases expr t with
  | error => rfl
  | ok e => exact congrArg some e.changed_zero

/-- Trees that differ in places only become filters that differ in places only. -/
theorem exists_expr_of_unplaced_eq (h : t.unplaced = u.unplaced) (hu : expr u = .ok e) :
    ∃ e', expr t = .ok e' ∧ e'.unplaced = e.unplaced := by
  have ht := expr_unplaced t
  rw [h, expr_unplaced, hu] at ht
  cases hr : expr t with
  | error => rw [hr] at ht; cases ht
  | ok e' =>
    rw [hr] at ht
    exact ⟨e', rfl, (Option.some.inj ht).symm⟩

end OfText
end FeatureFilter
