import FeatureFilter.Filter.Expr

namespace FeatureFilter

open Text (Span)

@[elab_as_elim, induction_eliminator]
theorem Expr.inductionOn {motive : Expr → Prop} (e : Expr)
    (binary : ∀ (s : Span) (op : BinaryOp) (left right : Expr), motive left → motive right →
      motive (.binary s op left right))
    (call : ∀ (s : Span) (name : FunctionName) (args : List Expr), (∀ a ∈ args, motive a) →
      motive (.call s name args))
    (advanced : ∀ (s : Span) (op : AdvancedOp) (negated : Bool) (args : List Expr),
      (∀ a ∈ args, motive a) → motive (.advanced s op negated args))
    (property : ∀ (s : Span) (name : String), motive (.property s name))
    (literal : ∀ (s : Span) (value : Literal), motive (.literal s value))
    (geometry : ∀ (s : Span) (value : Geometry), motive (.geometry s value))
    (geometries : ∀ (s : Span) (members : List Geometry), motive (.geometries s members))
    (box : ∀ (s : Span) (items : List Expr), (∀ a ∈ items, motive a) → motive (.box s items))
    (unary : ∀ (s : Span) (op : UnaryOp) (operand : Expr), motive operand →
      motive (.unary s op operand))
    (group : ∀ (s : Span) (inner : Expr), motive inner → motive (.group s inner))
    (array : ∀ (s : Span) (items : List Expr), (∀ a ∈ items, motive a) → motive (.array s items))
    (isNull : ∀ (s : Span) (negated : Bool) (operand : Expr), motive operand →
      motive (.isNull s negated operand))
    (interval : ∀ (s : Span) (start stop : Expr), motive start → motive stop →
      motive (.interval s start stop))
    (operator : ∀ (s : Span) (token : String), motive (.operator s token)) : motive e :=
  @Expr.rec motive (fun es => ∀ a ∈ es, motive a) binary call advanced property literal geometry
    geometries box unary group array isNull interval operator (fun _ h => absurd h List.not_mem_nil)
    (fun _ _ he hes => List.forall_mem_cons.2 ⟨he, hes⟩) e

end FeatureFilter
