import FeatureFilter.Proofs.Json.Strings
import FeatureFilter.Proofs.Sql.Acceptance

namespace FeatureFilter

/-- Rejections for which the collection is to blame: it has no column for a queryable property. -/
inductive Sql.Rejection.Unmapped : Sql.Rejection → Prop
  | property : Unmapped (.unmappedProperty name collection)
  | geometry : Unmapped (.noGeometryColumn collection)

namespace Collection

open Sql

theorem flaw?_eq_none_iff (c : Collection) :
    c.flaw? = none ↔ Text.isBlank c.id = false ∧ c.queryables ≠ [] ∧
      Text.isBlank c.geometryColumn = false ∧ ∀ p ∈ c.queryables, c.mappingFlaw? p = none := by
  rw [flaw?]
  split
  · rename_i hid
    simp [hid]
  · split
    · rename_i hid hq
      simp [List.isEmpty_iff.1 hq]
    · split
      · rename_i hid hq hg
        simp [hg]
      · rename_i hid hq hg
        have hne : c.queryables ≠ [] := fun he => hq (List.isEmpty_iff.2 he)
        simp [hid, hne, hg]

theorem validate_eq_ok_iff (c : Collection) : c.validate = .ok () ↔ c.flaw? = none := by
  rw [validate]
  cases c.flaw? with
  | none => simp
  | some flaw => simp

theorem mappingFlaw?_eq_none_iff (c : Collection) (h : p ≠ geometryProperty) :
    c.mappingFlaw? p = none ↔ ∃ column, c.propertyMap.get? p = some column ∧
      Text.isBlank column = false := by
  rw [mappingFlaw?, if_neg h]
  cases c.propertyMap.get? p with
  | none => simp
  | some column => simp

/-- A queryable property without a usable column is what both checks look for. -/
theorem resolve_unmapped_iff (c : Collection) (p : String) :
    (∃ r, c.resolve p = .error r ∧ r.Unmapped) ↔ p ∈ c.queryables ∧
      (p = geometryProperty ∧ Text.isBlank c.geometryColumn = true ∨
        p ≠ geometryProperty ∧ c.mappingFlaw? p ≠ none) := by
  have hqueryable : c.isQueryable p = true ↔ p ∈ c.queryables := by
    rw [isQueryable, List.contains_iff_mem]
  rw [resolve]
  by_cases hq : p ∈ c.queryables
  · rw [hqueryable.2 hq]
    by_cases hp : p = geometryProperty
    · subst hp
      cases hg : Text.isBlank c.geometryColumn with
      | true => simp [resolveGeometry, hg, hq, Rejection.Unmapped.geometry]
      | false => simp [resolveGeometry, hg]
    · rw [Ne, Ne, mappingFlaw?_eq_none_iff c hp]
      cases c.propertyMap.get? p with
      | none => simp [hp, hq, Rejection.Unmapped.property]
      | some column =>
        cases hb : Text.isBlank column with
        | true => simp [hp, hq, hb, Option.filter_some, Rejection.Unmapped.property]
        | false => simp [hp, hb, Option.filter_some]
  · have hb : c.isQueryable p = false := Bool.eq_false_iff.2 (mt hqueryable.1 hq)
    constructor
    · rintro ⟨r, hr, hu⟩
      rw [hb] at hr
      cases hr
      cases hu
    · intro h
      exact absurd h.1 hq

end Collection

open Sql

theorem Expr.resolve_of_fault? (h : Expr.fault? c e = some r) (hr : r.Unmapped) :
    ∃ p, c.resolve p = .error r := by
  cases e with
  | property s name =>
    rw [fault?] at h
    cases hc : c.resolve name with
    | ok column =>
      rw [hc] at h
      cases h
    | error reason =>
      rw [hc] at h
      cases h
      exact ⟨name, hc⟩
  | binary s op left right =>
    cases op <;> cases h
    cases hr
  | call s name args =>
    cases name with
    | other name =>
      cases h
      cases hr
    | spatial | distanceWithin =>
      obtain ⟨-, rfl⟩ := countFault?_eq_some h
      cases hr
  | advanced s op negated args =>
    cases op with
    | like | between | isIn =>
      obtain ⟨-, rfl⟩ := countFault?_eq_some h
      cases hr
  | box s items =>
    rcases Option.or_eq_some_iff.1 h with hcount | ⟨-, hitem⟩
    · obtain ⟨-, rfl⟩ := countFault?_eq_some hcount
      cases hr
    · obtain ⟨item, -, rfl⟩ := Option.map_eq_some_iff.1 hitem
      cases hr
  | array s items =>
    rw [fault?] at h
    split at h
    · cases h
      cases hr
    · cases h
  | interval | operator =>
    cases h
    cases hr
  | literal | geometry | geometries | unary | group | isNull => cases h

/-- A filter is rejected for a missing column only where a property of the collection has none. -/
theorem resolve_of_compile (h : compile filter c options = .error r) (hr : r.Unmapped) :
    ∃ p, c.resolve p = .error r := by
  rw [compile] at h
  cases he : Expr.read options.language filter with
  | error e =>
    rw [he] at h
    cases h
    cases hr
  | ok e =>
    rw [he] at h
    rcases (compileExpr_error_iff e c options r).1 h with ⟨limit, -, rfl⟩ | ⟨-, hfault⟩
    · cases hr
    · obtain ⟨n, -, hn⟩ := List.exists_of_findSome?_eq_some hfault
      exact Expr.resolve_of_fault? hn hr

def propertyFilter (p : String) : String := (Json.object [("property", .string p)]).compact

theorem read_propertyFilter (p : String) :
    Expr.read .json (propertyFilter p) = .ok (.property .zero p) := by
  simp only [Expr.read, Expr.ofJsonText, propertyFilter, Json.parse_compact_member]
  simp only [Expr.ofJsonFilter, OfJson.expr, OfJson.object]
  rfl

theorem compile_propertyFilter (h : c.resolve p = .error r) (hlang : options.language = .json)
    (hdepth : options.Admits (.property .zero p)) :
    compile (propertyFilter p) c options = .error r := by
  rw [compile, hlang, read_propertyFilter]
  have hfault : (Expr.property .zero p).fault? c = some r := by rw [Expr.fault?, h]
  exact compileExpr_of_fault hfault hdepth

/-- No filter is rejected for a missing column by a valid collection. And a collection with a name
and a queryable geometry that is not valid has a queryable property whose mere mention is so
rejected. -/
theorem Collection.validate_excludes_unmapped (c : Collection) :
    (c.validate = .ok () → ∀ filter options r, compile filter c options = .error r →
      ¬r.Unmapped) ∧
    (Text.isBlank c.id = false → geometryProperty ∈ c.queryables → c.validate ≠ .ok () →
      ∃ p ∈ c.queryables, ∀ options : Options, options.language = .json →
        options.maxDepth ≠ some 0 →
          ∃ r, compile (propertyFilter p) c options = .error r ∧ r.Unmapped) := by
  constructor
  · intro hvalid filter options r h hr
    rw [c.validate_eq_ok_iff, c.flaw?_eq_none_iff] at hvalid
    obtain ⟨-, -, hgeometry, hmapped⟩ := hvalid
    obtain ⟨p, hp⟩ := resolve_of_compile h hr
    obtain ⟨hq, ⟨-, hg⟩ | ⟨-, hm⟩⟩ := (c.resolve_unmapped_iff p).1 ⟨r, hp, hr⟩
    · rw [hgeometry] at hg
      cases hg
    · exact hm (hmapped p hq)
  · intro hid hgeometry hinvalid
    have hp : ∃ p, ∃ r, c.resolve p = .error r ∧ r.Unmapped := by
      by_contra hnone
      apply hinvalid
      rw [c.validate_eq_ok_iff, c.flaw?_eq_none_iff]
      refine ⟨hid, List.ne_nil_of_mem hgeometry, ?_, ?_⟩
      · cases hg : Text.isBlank c.geometryColumn with
        | false => rfl
        | true =>
          exact absurd ⟨_, (c.resolve_unmapped_iff _).2 ⟨hgeometry, .inl ⟨rfl, hg⟩⟩⟩ hnone
      · intro p hq
        by_contra hm
        have hne : p ≠ geometryProperty := by
          rintro rfl
          exact hm (if_pos rfl)
        exact hnone ⟨p, (c.resolve_unmapped_iff p).2 ⟨hq, .inr ⟨hne, hm⟩⟩⟩
    obtain ⟨p, r, hp, hr⟩ := hp
    refine ⟨p, ((c.resolve_unmapped_iff p).1 ⟨r, hp, hr⟩).1, fun options hlang hdepth => ?_⟩
    refine ⟨r, compile_propertyFilter hp hlang ?_, hr⟩
    intro limit hlimit
    cases limit with
    | zero => exact absurd hlimit hdepth
    | succ limit => exact Nat.succ_le_succ (Nat.zero_le limit)

def lakes (column : String) : Collection :=
  (Collection.new "lakes" ["name", "geometry"] "geom").withProperty "name" column

/-- With a column for the name, the owner is refused but not as unmapped; with a blank one, the
collection is not valid and the name is unmapped. -/
theorem Collection.validate_excludes_unmapped_lakes :
    ((lakes "lake_name").validate = .ok () ∧
      ∃ r, compile (propertyFilter "owner") (lakes "lake_name") { language := .json } = .error r ∧
        ¬r.Unmapped) ∧
    geometryProperty ∈ (lakes " ").queryables ∧ (lakes " ").validate ≠ .ok () ∧
      ∃ p ∈ (lakes " ").queryables,
        ∃ r, compile (propertyFilter p) (lakes " ") { language := .json } = .error r ∧
          r.Unmapped := by
  have hvalid : (lakes "lake_name").validate = .ok () :=
    (validate_eq_ok_iff _).2 (by decide)
  have howner : (lakes "lake_name").resolve "owner" =
      .error (.notQueryable "owner" "lakes" ["name", "geometry"]) := rfl
  have hcompile : compile (propertyFilter "owner") (lakes "lake_name") { language := .json } = _ :=
    compile_propertyFilter howner rfl nofun
  have hgeometry : geometryProperty ∈ (lakes " ").queryables := .tail _ (.head _)
  have hinvalid : (lakes " ").validate ≠ .ok () := by
    rw [Ne, validate_eq_ok_iff]
    decide
  obtain ⟨p, hp, hunmapped⟩ :=
    (validate_excludes_unmapped (lakes " ")).2 (by decide) hgeometry hinvalid
  exact ⟨⟨hvalid, _, hcompile, (validate_excludes_unmapped _).1 hvalid _ _ _ hcompile⟩, hgeometry,
    hinvalid, p, hp, hunmapped { language := .json } rfl nofun⟩

end FeatureFilter
