import FeatureFilter.Proofs.Sql.Faults

namespace FeatureFilter

namespace Expr

mutual

def properties : Expr → List String
  | .property _ name => [name]
  | .binary _ _ left right => left.properties ++ right.properties
  | .interval _ start stop => start.properties ++ stop.properties
  | .call _ _ args => propertiesEach args
  | .advanced _ _ _ args => propertiesEach args
  | .box _ items => propertiesEach items
  | .array _ items => propertiesEach items
  | .unary _ _ operand => operand.properties
  | .group _ inner => inner.properties
  | .isNull _ _ operand => operand.properties
  | .literal .. | .geometry .. | .geometries .. | .operator .. => []

def propertiesEach : List Expr → List String
  | [] => []
  | e :: es => e.properties ++ propertiesEach es

end

theorem mem_propertiesEach (he : e ∈ es) (h : name ∈ e.properties) : name ∈ propertiesEach es := by
  induction es with
  | nil => cases he
  | cons e' es ih =>
    rw [propertiesEach, List.mem_append]
    rcases List.mem_cons.1 he with rfl | he
    · exact .inl h
    · exact .inr (ih he)

theorem mem_properties_of_mem_parts {m e : Expr} (hm : m ∈ e.parts) (h : name ∈ m.properties) :
    name ∈ e.properties := by
  cases e with
  | binary | interval =>
    rw [properties, List.mem_append]
    rcases List.mem_pair.1 hm with rfl | rfl
    · exact .inl h
    · exact .inr h
  | call | advanced | box | array => exact mem_propertiesEach hm h
  | unary | group | isNull =>
    cases List.mem_singleton.1 hm
    exact h
  | property | literal | geometry | geometries | operator => cases hm

end Expr

/-- A column that holds a queryable property: the geometry column or the one that is mapped. -/
def Collection.Holds (c : Collection) (property column : String) : Prop :=
  property ∈ c.queryables ∧
    if property = geometryProperty then column = c.geometryColumn
    else c.propertyMap.get? property = some column

theorem Collection.holds_of_resolve (h : Collection.resolve c property = .ok column) :
    c.Holds property column := by
  unfold Collection.resolve at h
  split at h
  · cases h
  · rename_i hq
    have hm : property ∈ c.queryables := by
      simpa [Collection.isQueryable] using hq
    refine ⟨hm, ?_⟩
    split at h
    · rename_i hg
      rw [if_pos hg]
      unfold Collection.resolveGeometry at h
      split at h
      · cases h
      · cases h
        rfl
    · rename_i hg
      rw [if_neg hg]
      split at h
      · rename_i hf
        cases h
        exact (Option.filter_eq_some_iff.1 hf).1
      · cases h

namespace Sql.Outline

attribute [local simp] marks marksBehind

@[simp] theorem column_mem_parenthesized :
    .column name ∈ parenthesized ms ↔ Mark.column name ∈ ms := by
  simp [parenthesized]

theorem column_mem_marksBehind (h : .column name ∈ marksBehind os) :
    ∃ o ∈ os, .column name ∈ o.marks := by
  induction os with
  | nil => cases h
  | cons o os ih =>
    rw [marksBehind, List.mem_cons, List.mem_append] at h
    rcases h with h | h | h
    · cases h
    · exact ⟨o, List.mem_cons_self, h⟩
    · obtain ⟨o', hm, ho'⟩ := ih h
      exact ⟨o', List.mem_cons_of_mem _ hm, ho'⟩

theorem column_mem_marks (h : .column name ∈ marks o) :
    o = .column name ∨ ∃ p ∈ o.parts, .column name ∈ p.marks := by
  cases o with
  | column other =>
    cases List.mem_singleton.1 h
    exact .inl rfl
  | isIn negated subject first rest =>
    right
    simp only [marks, column_mem_parenthesized, List.mem_cons, List.mem_append, reduceCtorEq,
      false_or] at h
    rcases h with h | h | h
    · exact ⟨subject, by simp [parts], h⟩
    · exact ⟨first, by simp [parts], h⟩
    · obtain ⟨o, hm, ho⟩ := column_mem_marksBehind h
      exact ⟨o, by simp [parts, hm], ho⟩
  | list first rest =>
    right
    rw [marks, column_mem_parenthesized, List.mem_append] at h
    rcases h with h | h
    · exact ⟨first, by simp [parts], h⟩
    · obtain ⟨o, hm, ho⟩ := column_mem_marksBehind h
      exact ⟨o, by simp [parts, hm], ho⟩
  | reject | null | bool | hole | geometry => simp at h
  | _ => simpa [parts, or_assoc] using h

end Sql.Outline

open Sql (Outline Mark)

/-- Every column of a predicate holds a property that the filter names. -/
theorem Expr.column_mem_outline (h : .column col ∈ (Expr.outline c e).marks) :
    ∃ property ∈ e.properties, c.resolve property = .ok col := by
  induction e using Expr.inductionOnParts with
  | node e ih =>
    rcases Outline.column_mem_marks h with hcol | ⟨p, hp, hmark⟩
    · have ho := outlined_of_rejections (c := c) (e := e) (by rw [hcol]; rfl)
      rw [hcol] at ho
      cases ho with
      | property hr => exact ⟨_, List.mem_singleton_self _, hr⟩
      | literal value ho => cases value <;> cases ho
    · obtain ⟨m, hm, rfl⟩ := mem_parts_of_mem_parts_outline hp
      obtain ⟨property, hproperty, hr⟩ := ih m hm hmark
      exact ⟨property, mem_properties_of_mem_parts hm hproperty, hr⟩

end FeatureFilter
