import FeatureFilter.Proofs.Filter.Precedence
import FeatureFilter.Proofs.Filter.TextReadback
import FeatureFilter.Proofs.Sql.Acceptance
import FeatureFilter.Proofs.Sql.Placeless

namespace FeatureFilter

open Sql (Rejection)

namespace Expr

theorem Live.contains (h : Live c e n) : e.Contains n := by
  induction h with
  | root => exact .self
  | part _ _ hm ih => exact ih.trans_part (mem_parts_of_mem_written hm)

end Expr

/-- The operations that a text can give the wrong number of arguments. -/
def countedNames : List String := SpatialOp.all.map SpatialOp.name ++ ["s_dwithin", "bbox"]

/-- The rejections that are left for texts. -/
inductive Sql.Rejection.Textual : Rejection → Prop
  | unreadable : Textual (.unreadable e)
  | tooDeep : Textual (.tooDeep depth limit)
  | arithmetic (op : ArithmeticOp) : Textual (.unsupportedOperator op.name)
  | function : Textual (.unsupportedFunction name)
  | count : op ∈ countedNames → Textual (.argumentCount op expected found)
  | notQueryable : Textual (.notQueryable property collection queryables)
  | unmappedProperty : Textual (.unmappedProperty property collection)
  | noGeometryColumn : Textual (.noGeometryColumn collection)
  | emptyArray : Textual .emptyArray
  | interval : Textual (.unsupportedExpression "Interval")

open Sql.Rejection (Textual)

theorem SpatialOp.name_mem_countedNames (op : SpatialOp) : op.name ∈ countedNames := by
  cases op <;> decide

theorem Collection.textual_of_resolve (h : Collection.resolve c property = .error r) :
    r.Textual := by
  unfold Collection.resolve at h
  split at h
  · cases h
    exact .notQueryable
  · split at h
    · unfold Collection.resolveGeometry at h
      split at h
      · cases h
        exact .noGeometryColumn
      · cases h
    · split at h
      · cases h
      · cases h
        exact .unmappedProperty

namespace Expr

open Sql

theorem IsNumeral.isNumeric (h : IsNumeral e) : isNumeric e = true := by
  cases h with
  | integer | number => rfl

theorem fault?_of_takes (h : op.Takes args.length) :
    (Expr.advanced s op negated args).fault? c = none := by
  cases op with
  | like | between | isIn => exact countFault?_eq_none_iff.2 (decide_eq_true h)

/-- The fault of a node that is in order is one of those left for texts. -/
theorem Ordered.textual (h : Ordered n) (hf : n.fault? c = some r) : r.Textual := by
  cases n with
  | binary s op left right =>
    cases op with
    | arithmetic op =>
      cases hf
      exact .arithmetic op
    | and | or | comparison | spatial => cases hf
  | call s name args =>
    cases name with
    | other name =>
      cases hf
      exact .function
    | spatial op =>
      obtain ⟨-, rfl⟩ := countFault?_eq_some hf
      exact .count op.name_mem_countedNames
    | distanceWithin =>
      obtain ⟨-, rfl⟩ := countFault?_eq_some hf
      exact .count (by decide)
  | advanced s op negated args =>
    rw [fault?_of_takes h.1] at hf
    cases hf
  | property s name =>
    rw [fault?] at hf
    cases hr : c.resolve name with
    | ok column =>
      rw [hr] at hf
      cases hf
    | error reason =>
      rw [hr] at hf
      cases hf
      exact Collection.textual_of_resolve hr
  | box s items =>
    have hnumeric : items.find? (!isNumeric ·) = none := by
      apply List.find?_eq_none.2
      intro item hitem
      rw [(h.2 item hitem).isNumeric]
      exact Bool.false_ne_true
    rw [fault?, hnumeric, Option.map_none, Option.or_none] at hf
    obtain ⟨-, rfl⟩ := countFault?_eq_some hf
    exact .count (by decide)
  | array s items =>
    rw [fault?] at hf
    split at hf
    · cases hf
      exact .emptyArray
    · cases hf
  | interval s start stop =>
    cases hf
    exact .interval
  | operator s token => exact h.elim
  | literal | geometry | geometries | unary | group | isNull => cases hf

end Expr

theorem Expr.ordered_of_live (h : Expr.ofText text = .ok e) (hn : n ∈ e.live c) : n.Ordered := by
  obtain ⟨d, t, ht, -, he⟩ := derives_of_ofText h
  have hlayers := (OfText.layers t).1 .expression e (ht.grows _ _ rfl) he
  exact hlayers.contains ((e.mem_live_iff c n).1 hn).contains

theorem textual_of_compile (hlang : options.language = .text)
    (h : compile text c options = .error r) : r.Textual := by
  rw [compile, hlang, Expr.read] at h
  cases he : Expr.ofText text with
  | error e =>
    rw [he] at h
    cases h
    exact .unreadable
  | ok e =>
    rw [he] at h
    rcases (compileExpr_error_iff e c options r).1 h with ⟨limit, -, rfl⟩ | ⟨-, hfault⟩
    · exact .tooDeep
    · obtain ⟨n, hn, hf⟩ := List.exists_of_findSome?_eq_some hfault
      exact (Expr.ordered_of_live he hn).textual hf

/-- Some text is rejected so, for some collection. -/
def Sql.Rejection.MetByText (r : Rejection) : Prop :=
  ∃ text c options, options.language = .text ∧ compile text c options = .error r

open Sql.Rejection (MetByText)

/-- The canonical text of a filter is compiled as the filter. -/
theorem compile_toText (h : e.Printable) (hlang : options.language = .text) :
    compile e.toText c options = compileExpr e c options := by
  obtain ⟨e', he, hplace⟩ := ofText_of_laid h e.laid_toText
  rw [compile, hlang, Expr.read, he]
  show compileExpr e' c options = _
  rw [← compileExpr_unplaced, hplace, compileExpr_unplaced]

theorem metByText_of_fault {e : Expr} (h : e.Printable)
    (hf : e.fault? (.new "" [] "") = some r) : r.MetByText := by
  have hdepth : Options.Admits {} e := by
    intro limit hlimit
    cases hlimit
  refine ⟨e.toText, .new "" [] "", {}, rfl, ?_⟩
  rw [compile_toText h rfl]
  exact compileExpr_of_fault hf hdepth

def oneLiteral : Expr := .literal .zero (.integer 1)

theorem layered_oneLiteral : oneLiteral.Layered FunctionName.Printable Expr.PrintableAtom .unary :=
  .atom (.literal (.integer (by decide)))

theorem Expr.Layered.disjunction_of_additive (h : Layered Name Atom .additive e) :
    Layered Name Atom .disjunction e := .tighter rfl (.conjunction (.tighter rfl h))

theorem metByText_arithmetic (op : ArithmeticOp) :
    (Rejection.unsupportedOperator op.name).MetByText := by
  have hsum : (Expr.binary .zero (.arithmetic op) oneLiteral oneLiteral).Layered
      FunctionName.Printable Expr.PrintableAtom .additive := by
    have hone := layered_oneLiteral
    cases op with
    | add => exact .join .add hone.additive (.tighter rfl hone)
    | subtract => exact .join .subtract hone.additive (.tighter rfl hone)
    | multiply => exact .tighter rfl (.join .multiply (.tighter rfl hone) hone)
    | divide => exact .tighter rfl (.join .divide (.tighter rfl hone) hone)
  exact metByText_of_fault hsum.disjunction_of_additive rfl

theorem FunctionName.printable_spatial (op : SpatialOp) : (FunctionName.spatial op).Printable := by
  cases op <;> exact ⟨by decide, ⟨'s', _, rfl, rfl, rfl⟩, by decide⟩

theorem metByText_call (h : name.Printable)
    (hf : (Expr.call .zero name []).fault? (.new "" [] "") = some r) : r.MetByText := by
  have hcall : (Expr.call .zero name []).Layered FunctionName.Printable Expr.PrintableAtom
      .unary := by
    apply Expr.Layered.call h
    intro e he
    cases he
  exact metByText_of_fault hcall.disjunction hf

theorem metByText_count (h : op ∈ countedNames) :
    ∃ expected found, (Rejection.argumentCount op expected found).MetByText := by
  rcases List.mem_append.1 h with h | h
  · obtain ⟨spatial, -, rfl⟩ := List.mem_map.1 h
    exact ⟨_, _, metByText_call (FunctionName.printable_spatial spatial) rfl⟩
  · rcases List.mem_pair.1 h with rfl | rfl
    · have hname : FunctionName.distanceWithin.Printable :=
        ⟨by decide, ⟨'s', _, rfl, rfl, rfl⟩, by decide⟩
      exact ⟨_, _, metByText_call hname rfl⟩
    · have hbox : (Expr.box .zero [oneLiteral]).PrintableAtom := by
        apply Expr.PrintableAtom.box (List.cons_ne_nil _ _)
        intro e he
        exact ⟨_, _, List.mem_singleton.1 he, .integer⟩
      exact ⟨_, _, metByText_of_fault (Expr.Layered.atom hbox).disjunction rfl⟩

theorem metByText_interval : (Rejection.unsupportedExpression "Interval").MetByText := by
  have hbound : (Expr.property .zero "a").PrintableBound := .property (by decide)
  have hinterval := Expr.PrintableAtom.interval (s := .zero) hbound hbound
  exact metByText_of_fault (Expr.Layered.atom hinterval).disjunction rfl

/-- No text is rejected for an operator without operands, for something in a box that is no number,
or for the number of arguments of a comparison. The operators that texts are rejected for are those
of arithmetic, the expressions are intervals, and the operations whose arguments are too few or too
many are the functions of geometries and the box. -/
theorem Sql.Rejection.metByText_iff :
    (∀ token, ¬(Rejection.bareOperator token).MetByText) ∧
    (∀ found, ¬(Rejection.nonNumericBox found).MetByText) ∧
    (∀ (op : AdvancedOp) expected found,
      ¬(Rejection.argumentCount op.name expected found).MetByText) ∧
    (∀ op, (Rejection.unsupportedOperator op).MetByText ↔ op ∈ ["+", "-", "*", "/"]) ∧
    (∀ what, (Rejection.unsupportedExpression what).MetByText ↔ what = "Interval") ∧
    ∀ op, (∃ expected found, (Rejection.argumentCount op expected found).MetByText) ↔
      op ∈ SpatialOp.all.map SpatialOp.name ++ ["s_dwithin", "bbox"] := by
  have textual {r : Rejection} (h : r.MetByText) : r.Textual := by
    obtain ⟨text, c, options, hlang, h⟩ := h
    exact textual_of_compile hlang h
  refine ⟨?_, ?_, ?_, ?_, ?_, ?_⟩
  · intro token h
    cases textual h
  · intro found h
    cases textual h
  · intro op expected found h
    have hfree : op.name ∉ countedNames := by cases op <;> decide
    cases textual h with
    | count hop => exact hfree hop
  · intro op
    constructor
    · intro h
      cases textual h with
      | arithmetic op => cases op <;> decide
    · intro h
      have hop : op ∈ ArithmeticOp.all.map ArithmeticOp.name := h
      obtain ⟨arithmetic, -, rfl⟩ := List.mem_map.1 hop
      exact metByText_arithmetic arithmetic
  · intro what
    constructor
    · intro h
      cases textual h
      rfl
    · rintro rfl
      exact metByText_interval
  · intro op
    constructor
    · rintro ⟨expected, found, h⟩
      cases textual h with
      | count hop => exact hop
    · exact metByText_count

end FeatureFilter
