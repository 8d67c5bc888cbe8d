import FeatureFilter.Filter.OfText
import FeatureFilter.Proofs.Grammar.Trees

namespace FeatureFilter

open Grammar (Rule ParseTree)
open Text (Span)

namespace Expr

mutual

def changed (place : Span → Span) (rename : String → String) : Expr → Expr
  | .binary s op left right =>
    .binary (place s) op (left.changed place rename) (right.changed place rename)
  | .call s name args => .call (place s) name (changedEach place rename args)
  | .advanced s op negated args =>
    .advanced (place s) op negated (changedEach place rename args)
  | .property s name => .property (place s) (rename name)
  | .literal s value => .literal (place s) value
  | .geometry s value => .geometry (place s) value
  | .geometries s members => .geometries (place s) members
  | .box s items => .box (place s) (changedEach place rename items)
  | .unary s op operand => .unary (place s) op (operand.changed place rename)
  | .group s inner => .group (place s) (inner.changed place rename)
  | .array s items => .array (place s) (changedEach place rename items)
  | .isNull s negated operand => .isNull (place s) negated (operand.changed place rename)
  | .interval s start stop =>
    .interval (place s) (start.changed place rename) (stop.changed place rename)
  | .operator s token => .operator (place s) token

def changedEach (place : Span → Span) (rename : String → String) : List Expr → List Expr
  | [] => []
  | e :: es => e.changed place rename :: changedEach place rename es

end

end Expr

namespace OfText

theorem mem_of_mem_content (h : t ∈ content ts) : t ∈ ts := by
  induction ts with
  | nil => exact h
  | cons u ts ih =>
    cases u with
    | token => exact List.mem_cons_of_mem _ (ih h)
    | node => exact h

theorem operator_token (h : BinaryOp.ofToken? (.ofList cs) = some op) (s : Span) :
    operator s (.token r s' cs) = .ok op := by
  rw [operator, h]
  rfl

/-- A change of places and lexemes under which strings, operators and functions stay the same. -/
structure Change where
  place : Span → Span
  lexeme : Rule → List Char → List Char
  rename : String → String
  error : ReadError → ReadError
  error_fail : ∀ d s, error ⟨d, s.line, s.column⟩ = ⟨d, (place s).line, (place s).column⟩
  string : ∀ cs, stringValue (lexeme .stringLiteral cs) = stringValue cs
  identifier : ∀ cs, String.ofList (lexeme .identifier cs) = rename (.ofList cs)
  quotedIdentifier : ∀ cs, String.ofList (Text.between (lexeme .quotedIdentifier cs)) =
    rename (.ofList (Text.between cs))
  functionName : ∀ cs, FunctionName.ofString (.ofList (lexeme .functionName cs)) =
    .ofString (.ofList cs)
  operator : ∀ r cs, BinaryOp.ofToken? (.ofList (lexeme r cs)) =
    BinaryOp.ofToken? (.ofList cs)

namespace Change

variable (k : Change)

def tree (t : ParseTree Rule) : ParseTree Rule := t.changed k.place k.lexeme

def trees (ts : List (ParseTree Rule)) : List (ParseTree Rule) :=
  ParseTree.changedEach k.place k.lexeme ts

def filter (e : Expr) : Expr := e.changed k.place k.rename

def filters (es : List Expr) : List Expr := Expr.changedEach k.place k.rename es

/-- What is read, changed by `f`, or the failure to read it, in its new place. -/
def result (f : α → β) : Result α → Result β
  | .ok a => .ok (f a)
  | .error e => .error (k.error e)

/-- The rules with operators among their parts. -/
def operates : Rule → Bool
  | .disjunction | .conjunction | .additive | .multiplicative | .comparisonTail | .spatialTail =>
    true
  | _ => false

/-- The numerals and the operators of a tree stand for the same. -/
structure Counts (t : ParseTree Rule) : Prop where
  numeral : ∀ r s cs, ParseTree.Within (.token r s cs) t →
    r = .numberLiteral ∨ r = .signedNumber →
      OfText.numeral (k.place s) (k.lexeme r cs) = k.result id (OfText.numeral s cs)
  ordinate : ∀ s ts, ParseTree.Within (.node .coordinate s ts) t →
    ∀ u ∈ ts, OfText.ordinate (k.place s) (k.tree u) = k.result id (OfText.ordinate s u)
  operator : ∀ r s ts, ParseTree.Within (.node r s ts) t → operates r = true →
    ∀ u ∈ ts, OfText.operator (k.place s) (k.tree u) = k.result id (OfText.operator s u)

variable {k}

theorem Counts.part (h : Counts k (.node r s ts)) (ht : t ∈ ts) : Counts k t where
  numeral r s cs hu := h.numeral r s cs (.part ht hu)
  ordinate s us hu := h.ordinate s us (.part ht hu)
  operator r s us hu := h.operator r s us (.part ht hu)

theorem result_fail (f : α → β) (s : Span) (d : Defect) :
    fail (k.place s) d = k.result f (fail s d) := congrArg Except.error (k.error_fail d s).symm

theorem result_bind {x : Result β} {y : Result α} {l : β → Result δ} {m : α → Result γ}
    (h : x = k.result f y) (hl : ∀ a, l (f a) = k.result g (m a)) :
    x >>= l = k.result g (y >>= m) := by
  cases h
  cases y with
  | error e => rfl
  | ok a => exact hl a

theorem result_orFail (s : Span) (d : Defect) (a : Option α) :
    orFail (k.place s) d a = k.result id (orFail s d a) := by
  cases a with
  | none => exact result_fail _ _ _
  | some a => rfl

theorem operator_tree (h : OfText.operator s t = .ok op) :
    OfText.operator (k.place s) (k.tree t) = .ok op := by
  cases t with
  | token rule s' cs =>
    rw [tree, ParseTree.changed, OfText.operator, k.operator]
    rw [OfText.operator] at h
    cases hop : BinaryOp.ofToken? (.ofList cs) with
    | none =>
      rw [hop] at h
      cases h
    | some op' =>
      rw [hop] at h
      cases h
      rfl
  | node => cases h

theorem mapM_trees {read read' : ParseTree Rule → Result α}
    (h : ∀ t ∈ ts, read' (k.tree t) = k.result id (read t)) :
    (k.trees ts).mapM read' = k.result id (ts.mapM read) := by
  induction ts with
  | nil => rfl
  | cons t ts ih =>
    obtain ⟨ht, hts⟩ := List.forall_mem_cons.1 h
    rw [trees, ParseTree.changedEach, List.mapM_cons, List.mapM_cons]
    apply result_bind ht
    intro a
    apply result_bind (ih hts)
    intro as
    rfl

theorem coordinate_tree (h : Counts k t) : coordinate (k.tree t) = k.result id (coordinate t) := by
  cases t with
  | token => exact result_fail _ _ _
  | node rule s children =>
    cases rule with
    | coordinate =>
      apply result_bind (mapM_trees (h.ordinate s children .self))
      intro ordinates
      exact result_orFail _ _ _
    | _ => exact result_fail _ _ _

theorem coordinateList_tree (h : Counts k t) :
    coordinateList (k.tree t) = k.result id (coordinateList t) := by
  cases t with
  | token => exact result_fail _ _ _
  | node rule s children =>
    cases rule with
    | coordinateList => exact mapM_trees fun t ht => coordinate_tree (h.part ht)
    | _ => exact result_fail _ _ _

theorem ringList_tree (h : Counts k t) : ringList (k.tree t) = k.result id (ringList t) := by
  cases t with
  | token => exact result_fail _ _ _
  | node rule s children =>
    cases rule with
    | ringList => exact mapM_trees fun t ht => coordinateList_tree (h.part ht)
    | _ => exact result_fail _ _ _

theorem polygonList_tree (h : Counts k t) :
    polygonList (k.tree t) = k.result id (polygonList t) := by
  cases t with
  | token => exact result_fail _ _ _
  | node rule s children =>
    cases rule with
    | polygonList => exact mapM_trees fun t ht => ringList_tree (h.part ht)
    | _ => exact result_fail _ _ _

theorem content_trees (ts : List (ParseTree Rule)) :
    content (k.trees ts) = k.trees (content ts) := by
  induction ts with
  | nil => rfl
  | cons t ts ih =>
    cases t with
    | token => exact ih
    | node => rfl

theorem soleContent_bind {read : ParseTree Rule → Result α} (rule : Rule) (s : Span)
    (h : ∀ t ∈ ts, read (k.tree t) = k.result id (read t)) (make : α → Geometry) :
    (do return make (← read (← soleContent rule (k.place s) (k.trees ts)))) =
      k.result id (do return make (← read (← soleContent rule s ts))) := by
  rw [soleContent, soleContent, content_trees]
  cases hc : content ts with
  | nil => exact result_fail _ _ _
  | cons t us =>
    have ht : t ∈ content ts := by
      rw [hc]
      exact List.mem_cons_self
    apply result_bind (h t (mem_of_mem_content ht))
    intro a
    rfl

theorem geometryEach_trees (h : ∀ t ∈ ts, geometry (k.tree t) = k.result id (geometry t)) :
    geometryEach (k.trees ts) = k.result id (geometryEach ts) := by
  induction ts with
  | nil => rfl
  | cons t ts ih =>
    obtain ⟨ht, hts⟩ := List.forall_mem_cons.1 h
    apply result_bind ht
    intro g
    apply result_bind (ih hts)
    intro gs
    rfl

theorem geometry_tree (h : Counts k t) : geometry (k.tree t) = k.result id (geometry t) := by
  induction t using ParseTree.inductionOn with
  | token => exact result_fail _ _ _
  | node rule s children ih =>
    cases rule with
    | geometryLiteral =>
      cases children with
      | nil => exact result_fail _ _ _
      | cons t ts => exact ih t List.mem_cons_self (h.part List.mem_cons_self)
    | pointText => exact soleContent_bind _ s (fun t ht => coordinate_tree (h.part ht)) _
    | lineStringText => exact soleContent_bind _ s (fun t ht => coordinateList_tree (h.part ht)) _
    | polygonText | multiLineStringText =>
      exact soleContent_bind _ s (fun t ht => ringList_tree (h.part ht)) _
    | multiPolygonText => exact soleContent_bind _ s (fun t ht => polygonList_tree (h.part ht)) _
    | multiPointText =>
      have hmembers : (k.trees (content children)).mapM coordinate = _ :=
        mapM_trees fun t ht => coordinate_tree (h.part (mem_of_mem_content ht))
      rw [← content_trees] at hmembers
      apply result_bind hmembers
      intro cs
      rfl
    | geometryCollectionText =>
      cases children with
      | nil => rfl
      | cons t ts =>
        apply result_bind (geometryEach_trees fun u hu =>
          ih u (List.mem_cons_of_mem t hu) (h.part (List.mem_cons_of_mem t hu)))
        intro gs
        rfl
    | _ => exact result_fail _ _ _

/-- What is to be shown of every tree. -/
def Carries (k : Change) (t : ParseTree Rule) : Prop :=
  expr (k.tree t) = k.result k.filter (expr t)

theorem isToken_tree (rule : Rule) (t : ParseTree Rule) :
    isToken rule (k.tree t) = isToken rule t := by
  cases t with
  | token => rfl
  | node => rfl

theorem any_isToken_trees (rule : Rule) (ts : List (ParseTree Rule)) :
    (k.trees ts).any (isToken rule) = ts.any (isToken rule) := by
  induction ts with
  | nil => rfl
  | cons t ts ih =>
    rw [trees] at ih
    rw [trees, ParseTree.changedEach, List.any_cons, List.any_cons, ih]
    exact congrArg (· || _) (isToken_tree rule t)

theorem each_trees (h : ∀ t ∈ ts, Carries k t) :
    each (k.trees ts) = k.result k.filters (each ts) := by
  induction ts with
  | nil => rfl
  | cons t ts ih =>
    obtain ⟨ht, hts⟩ := List.forall_mem_cons.1 h
    apply result_bind ht
    intro e
    apply result_bind (ih hts)
    intro es
    rfl

theorem operands_trees (h : ∀ t ∈ ts, Carries k t) :
    operands (k.trees ts) = k.result k.filters (operands ts) := by
  induction ts with
  | nil => rfl
  | cons t ts ih =>
    obtain ⟨ht, hts⟩ := List.forall_mem_cons.1 h
    cases t with
    | token => exact ih hts
    | node =>
      apply result_bind ht
      intro e
      apply result_bind (ih hts)
      intro es
      rfl

theorem chainFrom_trees (s : Span) (left : Expr) (h : ∀ t ∈ ts, Carries k t)
    (hop : ∀ t ∈ ts, OfText.operator (k.place s) (k.tree t) = k.result id (OfText.operator s t)) :
    chainFrom (k.place s) (k.filter left) (k.trees ts) =
      k.result k.filter (chainFrom s left ts) := by
  -- The operands are taken two at a time, so the induction is on the length.
  induction hn : ts.length using Nat.strongRecOn generalizing ts left with
  | ind n ih =>
    rcases ts with _ | ⟨op, _ | ⟨t, ts⟩⟩
    · rfl
    · exact result_fail _ _ _
    · obtain ⟨_, h⟩ := List.forall_mem_cons.1 h
      obtain ⟨ht, hts⟩ := List.forall_mem_cons.1 h
      obtain ⟨hop, hmore⟩ := List.forall_mem_cons.1 hop
      apply result_bind hop
      intro op
      apply result_bind ht
      intro e
      have hlt : ts.length < n := by
        rw [← hn, List.length_cons, List.length_cons]
        omega
      exact ih ts.length hlt (.binary s op left e) hts (List.forall_mem_cons.1 hmore).2 rfl

theorem chain_trees (rule : Rule) (s : Span) (h : ∀ t ∈ ts, Carries k t)
    (hop : ∀ t ∈ ts, OfText.operator (k.place s) (k.tree t) = k.result id (OfText.operator s t)) :
    chain rule (k.place s) (k.trees ts) = k.result k.filter (chain rule s ts) := by
  cases ts with
  | nil => exact result_fail _ _ _
  | cons t ts =>
    obtain ⟨ht, hts⟩ := List.forall_mem_cons.1 h
    apply result_bind ht
    intro e
    exact chainFrom_trees s e hts (List.forall_mem_cons.1 hop).2

theorem related_trees (s s' : Span) (subject : Expr) (h : ∀ t ∈ ts, Carries k t)
    (hop : ∀ t ∈ ts, OfText.operator (k.place s') (k.tree t) = k.result id (OfText.operator s' t)) :
    related (k.place s) (k.place s') (k.filter subject) (k.trees ts) =
      k.result k.filter (related s s' subject ts) := by
  rcases ts with _ | ⟨op, _ | ⟨t, ts⟩⟩
  · exact result_fail _ _ _
  · exact result_fail _ _ _
  · apply result_bind (hop op List.mem_cons_self)
    intro op
    apply result_bind (h t (List.mem_cons_of_mem _ List.mem_cons_self))
    intro e
    rfl

theorem signed_trees (mark : Rule) (op : UnaryOp) (part operand : String) (s : Span)
    (h : ∀ t ∈ ts, Carries k t) :
    signed mark op part operand (k.place s) (k.trees ts) =
      k.result k.filter (signed mark op part operand s ts) := by
  rcases ts with _ | ⟨t, ts⟩
  · exact result_fail _ _ _
  obtain ⟨ht, hts⟩ := List.forall_mem_cons.1 h
  have hsign := isToken_tree (k := k) mark t
  rw [tree] at hsign
  cases ts with
  | nil =>
    simp only [trees, ParseTree.changedEach, signed, hsign]
    cases isToken mark t with
    | true => exact result_fail _ _ _
    | false => exact ht
  | cons u us =>
    simp only [trees, ParseTree.changedEach, signed, hsign]
    cases isToken mark t with
    | true =>
      apply result_bind (hts u List.mem_cons_self)
      intro e
      rfl
    | false => exact ht

theorem predicate_tree (s : Span) (subject : Expr) (hc : Counts k tail)
    (h : ∀ t ∈ tail.children, Carries k t) :
    predicate (k.place s) (k.filter subject) (k.tree tail) =
      k.result k.filter (predicate s subject tail) := by
  cases tail with
  | token => exact result_fail _ _ _
  | node rule s' children =>
    have hnot := any_isToken_trees (k := k) .kwNot children
    rw [trees] at hnot
    cases rule with
    | comparisonTail | spatialTail =>
      exact related_trees s s' subject h (hc.operator _ s' children .self rfl)
    | likeTail | betweenTail | inTail =>
      simp only [tree, ParseTree.changed, predicate, hnot]
      apply result_bind (operands_trees h)
      intro es
      rfl
    | isNullTail =>
      simp only [tree, ParseTree.changed, predicate, hnot]
      rfl
    | _ => exact result_fail _ _ _

theorem timestamp_place (s : Span) (text : String) :
    timestamp (k.place s) text = k.result k.filter (timestamp s text) := by
  rw [timestamp, timestamp]
  cases Time.Instant.ofString? text with
  | none => exact result_fail _ _ _
  | some t => rfl

theorem date_place (s : Span) (text : String) :
    date (k.place s) text = k.result k.filter (date s text) := by
  rw [date, date]
  cases Time.Date.ofString? text with
  | none => exact result_fail _ _ _
  | some d => rfl

theorem soleString_trees (s : Span) (ts : List (ParseTree Rule)) :
    soleString (k.place s) (k.trees ts) = k.result id (soleString s ts) := by
  rcases ts with _ | ⟨t, _ | ⟨⟨r, s', lexeme⟩ | ⟨r, s', us⟩, _ | ⟨v, vs⟩⟩⟩
  · exact result_fail _ _ _
  · exact result_fail _ _ _
  · cases r with
    | stringLiteral => exact congrArg Except.ok (k.string lexeme)
    | _ => exact result_fail _ _ _
  · cases r <;> exact result_fail _ _ _
  · exact result_fail _ _ _
  · exact result_fail _ _ _

theorem propertyExpr_trees (s : Span) (ts : List (ParseTree Rule)) :
    propertyExpr (k.place s) (k.trees ts) = k.result k.filter (propertyExpr s ts) := by
  rcases ts with _ | ⟨⟨r, s', lexeme⟩ | ⟨r, s', us⟩, _ | ⟨v, vs⟩⟩
  · exact result_fail _ _ _
  · cases r with
    | identifier =>
      exact congrArg (fun name => Except.ok (Expr.property (k.place s) name))
        (k.identifier lexeme)
    | quotedIdentifier =>
      exact congrArg (fun name => Except.ok (Expr.property (k.place s) name))
        (k.quotedIdentifier lexeme)
    | _ => exact result_fail _ _ _
  · cases r <;> exact result_fail _ _ _
  · exact result_fail _ _ _
  · exact result_fail _ _ _

theorem carries_token (h : Counts k (.token r s cs)) : Carries k (.token r s cs) := by
  cases r with
  | numberLiteral =>
    apply result_bind (h.numeral _ s cs .self (.inl rfl))
    intro l
    rfl
  | signedNumber =>
    apply result_bind (h.numeral _ s cs .self (.inr rfl))
    intro l
    rfl
  | stringLiteral =>
    exact congrArg (fun text => Except.ok (Expr.literal (k.place s) (.string text)))
      (k.string cs)
  | _ => exact result_fail _ _ _

theorem filter_ofGeometry (s : Span) (g : Geometry) :
    k.filter (.ofGeometry s g) = .ofGeometry (k.place s) g := by
  cases g <;> rfl

/-- The subject and the tail of a predicate lie two levels apart, so the parts are carried along. -/
theorem carries_parts (h : Counts k t) : Carries k t ∧ ∀ u ∈ t.children, Carries k u := by
  induction t using ParseTree.inductionOn with
  | token => exact ⟨carries_token h, fun u hu => absurd hu List.not_mem_nil⟩
  | node rule s children ih =>
    have hboth : ∀ u ∈ children, Carries k u ∧ ∀ v ∈ u.children, Carries k v :=
      fun u hu => ih u hu (h.part hu)
    have hall : ∀ u ∈ children, Carries k u := fun u hu => (hboth u hu).1
    refine ⟨?_, hall⟩
    cases rule with
    | expression =>
      cases children with
      | nil => exact result_fail _ _ _
      | cons t ts => exact hall t List.mem_cons_self
    | disjunction | conjunction | additive | multiplicative =>
      exact chain_trees _ s hall (h.operator _ s children .self rfl)
    | negation | unary => exact signed_trees _ _ _ _ s hall
    | predicate =>
      rcases children with _ | ⟨t, _ | ⟨tail, ts⟩⟩
      · exact result_fail _ _ _
      · exact hall t List.mem_cons_self
      · have htail : tail ∈ t :: tail :: ts := List.mem_cons_of_mem t List.mem_cons_self
        apply result_bind (hall t List.mem_cons_self)
        intro e
        exact predicate_tree s e (h.part htail) (hboth tail htail).2
    | booleanLiteral =>
      exact congrArg (fun b => Except.ok (Expr.literal (k.place s) (.boolean b)))
        (any_isToken_trees .kwTrue children)
    | nullLiteral => rfl
    | timestampLiteral =>
      apply result_bind (soleString_trees s children)
      intro text
      exact timestamp_place s text
    | dateLiteral =>
      apply result_bind (soleString_trees s children)
      intro text
      exact date_place s text
    | interval =>
      rcases children with _ | ⟨t, _ | ⟨start, _ | ⟨stop, ts⟩⟩⟩
      · exact result_fail _ _ _
      · exact result_fail _ _ _
      · exact result_fail _ _ _
      · obtain ⟨_, hbounds⟩ := List.forall_mem_cons.1 hall
        obtain ⟨hstart, hstop⟩ := List.forall_mem_cons.1 hbounds
        apply result_bind hstart
        intro e
        apply result_bind (hstop stop List.mem_cons_self)
        intro e'
        rfl
    | bbox =>
      cases children with
      | nil => rfl
      | cons t ts =>
        apply result_bind (each_trees (List.forall_mem_cons.1 hall).2)
        intro es
        rfl
    | geometryLiteral =>
      apply result_bind (geometry_tree h)
      intro g
      exact congrArg Except.ok (filter_ofGeometry s g).symm
    | functionCall =>
      have hargs := each_trees hall
      rcases children with _ | ⟨⟨r, s', lexeme⟩ | ⟨r, s', us⟩, ts⟩
      · rfl
      · cases r with
        | functionName =>
          apply result_bind (each_trees (List.forall_mem_cons.1 hall).2)
          intro es
          exact congrArg (fun name => Except.ok (Expr.call (k.place s) name (k.filters es)))
            (k.functionName lexeme)
        | _ =>
          apply result_bind hargs
          intro es
          rfl
      · apply result_bind hargs
        intro es
        rfl
    | parenthesized =>
      apply result_bind (each_trees hall)
      intro es
      rcases es with _ | ⟨e, _ | ⟨e', es⟩⟩
      · rfl
      · rfl
      · rfl
    | property => exact propertyExpr_trees s children
    | _ => exact result_fail _ _ _

theorem expr_tree (h : Counts k t) : expr (k.tree t) = k.result k.filter (expr t) :=
  (carries_parts h).1

end Change
end OfText
end FeatureFilter
