import FeatureFilter.Filter.OfJson
import FeatureFilter.Proofs.Filter.Parts
import FeatureFilter.Proofs.Filter.Places
import FeatureFilter.Proofs.Filter.Precedence

namespace FeatureFilter

open Text (Span)

namespace Expr

theorem unplacedEach_eq_self_iff (es : List Expr) :
    unplacedEach es = es ↔ ∀ e ∈ es, e.unplaced = e := by
  induction es with
  | nil => simp [unplacedEach]
  | cons e es ih => rw [unplacedEach, List.cons_eq_cons, ih, List.forall_mem_cons]

theorem unplaced_eq_self_iff (e : Expr) :
    e.unplaced = e ↔ e.span = .zero ∧ ∀ m ∈ e.parts, m.unplaced = m := by
  cases e <;> simp [unplaced, span, parts, unplacedEach_eq_self_iff, eq_comm (a := Span.zero)]

theorem span_of_unplaced {e n : Expr} (h : e.unplaced = e) (hn : e.Contains n) :
    n.span = .zero := by
  induction hn with
  | self => exact ((unplaced_eq_self_iff _).1 h).1
  | part hm _ ih => exact ih (((unplaced_eq_self_iff _).1 h).2 _ hm)

end Expr

namespace OfJson

open OfText (exists_of_bind)

/-- A value stands for a filter without places, if for any. -/
def Placeless (j : Json) : Prop := ∀ e, expr j = .ok e → e.unplaced = e

theorem each_placeless (hitems : ∀ j ∈ items, Placeless j) (h : each items = .ok es) :
    ∀ e ∈ es, e.unplaced = e := by
  induction items generalizing es with
  | nil =>
    rw [each] at h
    cases h
    exact fun _ he => absurd he List.not_mem_nil
  | cons j js ih =>
    obtain ⟨hj, hjs⟩ := List.forall_mem_cons.1 hitems
    rw [each] at h
    obtain ⟨e, he, h⟩ := exists_of_bind h
    obtain ⟨rest, hrest, h⟩ := exists_of_bind h
    cases h
    exact List.forall_mem_cons.2 ⟨hj e he, ih hjs hrest⟩

theorem list_placeless (hj : ∀ i, sizeOf i < sizeOf j → Placeless i) (h : list what j = .ok es) :
    ∀ e ∈ es, e.unplaced = e := by
  cases j with
  | array items =>
    rw [list] at h
    refine each_placeless (fun i hi => hj i ?_) h
    have := List.sizeOf_lt_of_mem hi
    simp
    omega
  | _ =>
    rw [list] at h
    · cases h
    · intro items hitems
      cases hitems

theorem bound_placeless (hj : Placeless j) (h : bound j = .ok e) : e.unplaced = e := by
  cases j with
  | string text =>
    rw [bound] at h
    cases h
    rfl
  | _ =>
    rw [bound] at h
    · exact hj e h
    · intro text htext
      cases htext

theorem interval_placeless (hj : ∀ i, sizeOf i < sizeOf j → Placeless i)
    (h : interval j = .ok e) : e.unplaced = e := by
  rw [interval.eq_def] at h
  split at h
  · obtain ⟨start, hstart, h⟩ := exists_of_bind h
    obtain ⟨stop, hstop, h⟩ := exists_of_bind h
    cases h
    rw [Expr.unplaced, bound_placeless (hj _ (by simp; omega)) hstart,
      bound_placeless (hj _ (by simp; omega)) hstop]
  · cases h
  · cases h

theorem foldl_placeless {left : Expr} {es : List Expr} (hleft : left.unplaced = left)
    (hes : ∀ e ∈ es, e.unplaced = e) :
    (es.foldl (.binary .zero op) left).unplaced = es.foldl (.binary .zero op) left := by
  induction es generalizing left with
  | nil => exact hleft
  | cons e es ih =>
    obtain ⟨he, hes⟩ := List.forall_mem_cons.1 hes
    refine ih ?_ hes
    rw [Expr.unplaced, hleft, he]

theorem logical_placeless (hargs : ∀ e ∈ args, e.unplaced = e) (h : logical op args = .ok e) :
    e.unplaced = e := by
  rcases args with _ | ⟨first, _ | ⟨second, rest⟩⟩
  · cases h
  · cases h
  · obtain ⟨hfirst, hargs⟩ := List.forall_mem_cons.1 hargs
    obtain ⟨hsecond, hrest⟩ := List.forall_mem_cons.1 hargs
    cases h
    refine foldl_placeless ?_ hrest
    rw [Expr.unplaced, hfirst, hsecond]

theorem onlyArgument_placeless (hargs : ∀ e ∈ args, e.unplaced = e)
    (h : onlyArgument op args = .ok e) : e.unplaced = e := by
  rcases args with _ | ⟨first, _ | _⟩
  · cases h
  · cases h
    exact hargs e List.mem_cons_self
  · cases h

theorem candidates_placeless (hargs : ∀ e ∈ args, e.unplaced = e) :
    ∀ e ∈ candidates args, e.unplaced = e := by
  rw [candidates.eq_def]
  split
  · obtain ⟨hfirst, hargs⟩ := List.forall_mem_cons.1 hargs
    have hitems := ((Expr.unplaced_eq_self_iff _).1 (hargs _ List.mem_cons_self)).2
    exact List.forall_mem_cons.2 ⟨hfirst, hitems⟩
  · exact hargs

theorem operation_placeless (hargs : ∀ e ∈ args, e.unplaced = e) (h : operation op args = .ok e) :
    e.unplaced = e := by
  rw [operation.eq_def] at h
  split at h
  · exact logical_placeless hargs h
  · exact logical_placeless hargs h
  · obtain ⟨operand, hoperand, h⟩ := exists_of_bind h
    cases h
    rw [Expr.unplaced, onlyArgument_placeless hargs hoperand]
  · obtain ⟨operand, hoperand, h⟩ := exists_of_bind h
    cases h
    rw [Expr.unplaced, onlyArgument_placeless hargs hoperand]
  · cases h
    exact (Expr.unplaced_eq_self_iff _).2 ⟨rfl, hargs⟩
  · cases h
    exact (Expr.unplaced_eq_self_iff _).2 ⟨rfl, hargs⟩
  · cases h
    exact (Expr.unplaced_eq_self_iff _).2 ⟨rfl, candidates_placeless hargs⟩
  · split at h
    · split at h
      · cases h
        exact (Expr.unplaced_eq_self_iff _).2 ⟨rfl, hargs⟩
      · cases h
    · cases h
      exact (Expr.unplaced_eq_self_iff _).2 ⟨rfl, hargs⟩

theorem timestamp_placeless (h : timestamp text = .ok e) : e.unplaced = e := by
  rw [timestamp] at h
  split at h
  · cases h
    rfl
  · cases h

theorem date_placeless (h : date text = .ok e) : e.unplaced = e := by
  rw [date] at h
  split at h
  · cases h
    rfl
  · cases h

theorem object_placeless (hj : ∀ j, sizeOf j < sizeOf members → Placeless j)
    (h : object members = .ok e) : e.unplaced = e := by
  rw [object.eq_def] at h
  split at h
  · obtain ⟨op, -, h⟩ := exists_of_bind h
    split at h
    · cases h
      rfl
    · rename_i args hargs _
      obtain ⟨es, hes, h⟩ := exists_of_bind h
      exact operation_placeless (list_placeless (fun i hi => hj i (Nat.lt_trans hi hargs)) hes) h
  split at h
  · obtain ⟨name, -, h⟩ := exists_of_bind h
    cases h
    rfl
  split at h
  · obtain ⟨text, -, h⟩ := exists_of_bind h
    exact timestamp_placeless h
  split at h
  · obtain ⟨text, -, h⟩ := exists_of_bind h
    exact date_placeless h
  split at h
  · rename_i bounds hbounds _
    exact interval_placeless (fun i hi => hj i (Nat.lt_trans hi hbounds)) h
  split at h
  · rename_i items hitems _
    obtain ⟨es, hes, h⟩ := exists_of_bind h
    cases h
    exact (Expr.unplaced_eq_self_iff _).2
      ⟨rfl, list_placeless (fun i hi => hj i (Nat.lt_trans hi hitems)) hes⟩
  split at h
  · obtain ⟨g, -, h⟩ := exists_of_bind h
    cases h
    exact Expr.unplaced_ofGeometry .zero g
  · cases h

theorem placeless (j : Json) : Placeless j := by
  -- A value is read by way of its members and items, which are smaller.
  induction hn : sizeOf j using Nat.strongRecOn generalizing j with
  | ind n ih =>
    have hsmaller : ∀ i, sizeOf i < sizeOf j → Placeless i := fun i hi => ih _ (hn ▸ hi) i rfl
    intro e he
    cases j with
    | array items =>
      rw [expr] at he
      obtain ⟨es, hes, he⟩ := exists_of_bind he
      cases he
      have hitems : ∀ i ∈ items, Placeless i := by
        intro i hi
        have := List.sizeOf_lt_of_mem hi
        exact hsmaller i (by simp; omega)
      exact (Expr.unplaced_eq_self_iff _).2 ⟨rfl, each_placeless hitems hes⟩
    | object members =>
      rw [expr] at he
      exact object_placeless (fun i hi => hsmaller i (by simp; omega)) he
    | _ =>
      rw [expr] at he
      cases he
      rfl

end OfJson

end FeatureFilter
