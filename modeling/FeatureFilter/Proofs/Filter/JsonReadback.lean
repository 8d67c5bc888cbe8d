import FeatureFilter.Filter.OfJson
import FeatureFilter.Proofs.Filter.TextReadback
import FeatureFilter.Proofs.Sql.Placeless

namespace FeatureFilter

open Number (Binary64)
open Text (Span)
open Time (Date Instant)

namespace Coordinate

def toGeoJson (c : Coordinate) : Json :=
  .array ([c.x, c.y] ++ c.z.toList |>.map .ofBinary64)

end Coordinate

def lineGeoJson (cs : List Coordinate) : Json := .array (cs.map Coordinate.toGeoJson)

def ringGeoJson (rings : List (List Coordinate)) : Json := .array (rings.map lineGeoJson)

def simpleGeoJson (kind : String) (coordinates : Json) : Json :=
  .object [("coordinates", coordinates), ("type", .string kind)]

namespace Geometry

mutual

def toGeoJson : Geometry → Json
  | .point c => simpleGeoJson "Point" c.toGeoJson
  | .lineString cs => simpleGeoJson "LineString" (lineGeoJson cs)
  | .polygon rings => simpleGeoJson "Polygon" (ringGeoJson rings)
  | .multiPoint cs => simpleGeoJson "MultiPoint" (lineGeoJson cs)
  | .multiLineString lines => simpleGeoJson "MultiLineString" (ringGeoJson lines)
  | .multiPolygon polygons => simpleGeoJson "MultiPolygon" (.array (polygons.map ringGeoJson))
  | .collection members =>
    .object [("geometries", .array (toGeoJsonEach members)),
      ("type", .string "GeometryCollection")]

def toGeoJsonEach : List Geometry → List Json
  | [] => []
  | g :: gs => g.toGeoJson :: toGeoJsonEach gs

end

inductive Finite : Geometry → Prop
  | point : c.Finite → Finite (.point c)
  | lineString : (∀ c ∈ cs, c.Finite) → Finite (.lineString cs)
  | polygon : (∀ cs ∈ rings, ∀ c ∈ cs, c.Finite) → Finite (.polygon rings)
  | multiPoint : (∀ c ∈ cs, c.Finite) → Finite (.multiPoint cs)
  | multiLineString : (∀ cs ∈ lines, ∀ c ∈ cs, c.Finite) → Finite (.multiLineString lines)
  | multiPolygon : (∀ rings ∈ polygons, ∀ cs ∈ rings, ∀ c ∈ cs, c.Finite) →
    Finite (.multiPolygon polygons)
  | collection : (∀ g ∈ gs, Finite g) → Finite (.collection gs)

end Geometry

namespace Literal

def toJsonFilter : Literal → Json
  | .null => .null
  | .boolean b => .bool b
  | .integer n => .integer n.toInt
  | .number x => .ofBinary64 x
  | .string s => .string s
  | .timestamp t => .object [("timestamp", .string (toString t))]
  | .date d => .object [("date", .string (toString d))]

inductive Encodable : Literal → Prop
  | null : Encodable .null
  | boolean : Encodable (.boolean b)
  | integer : Encodable (.integer n)
  | number : x.isFinite = true → Encodable (.number x)
  | string : Encodable (.string s)
  | timestamp : 0 ≤ t.date.year ∧ t.date.year ≤ 9999 → Encodable (.timestamp t)
  | date : Encodable (.date d)

end Literal

def operationJson (op : String) (args : List Json) : Json :=
  .object [("args", .array args), ("op", .string op)]

/-- A list as the only candidate is put in a list of its own, so as not to be taken for the list of
the candidates. -/
def candidatesJson : List Json → List Json
  | [value, .array items] => [value, .array [.array items]]
  | args => args

namespace Expr

mutual

def toJsonFilter : Expr → Json
  | .binary _ op left right => operationJson op.name [left.toJsonFilter, right.toJsonFilter]
  | .call _ name args => operationJson name.name (toJsonFilterEach args)
  | .advanced _ op _ args =>
    operationJson op.name
      (if op = .isIn then candidatesJson (toJsonFilterEach args) else toJsonFilterEach args)
  | .property _ name => .object [("property", .string name)]
  | .literal _ value => value.toJsonFilter
  | .geometry _ g => g.toGeoJson
  | .geometries _ members => (Geometry.collection members).toGeoJson
  | .box _ items => .object [("bbox", .array (toJsonFilterEach items))]
  | .unary _ op operand => operationJson op.name [operand.toJsonFilter]
  | .group _ inner => inner.toJsonFilter
  | .array _ items => .array (toJsonFilterEach items)
  | .isNull _ _ operand => operationJson "isNull" [operand.toJsonFilter]
  | .interval _ start stop =>
    .object [("interval", .array [start.toJsonFilter, stop.toJsonFilter])]
  | .operator _ token => .object [("op", .string token)]

def toJsonFilterEach : List Expr → List Json
  | [] => []
  | e :: es => e.toJsonFilter :: toJsonFilterEach es

end

theorem toJsonFilterEach_eq_map (es : List Expr) : toJsonFilterEach es = es.map toJsonFilter := by
  induction es with
  | nil => rfl
  | cons e es ih => rw [toJsonFilterEach, ih, List.map_cons]

end Expr

/-- The words of operations that are no functions. -/
def operationWords : List String :=
  ["and", "or", "not", "isnull", "like", "between", "in"] ++
    OfJson.plainOperators.map BinaryOp.name

/-- The names that a word other than those of operations stands for. -/
def FunctionName.Encodable (name : FunctionName) : Prop :=
  (∃ word, FunctionName.ofString word = name) ∧ name.name ∉ operationWords

namespace Expr

/-- A text that bounds an interval is neither an instant nor a date. -/
def PlainBound (e : Expr) : Prop :=
  ∀ s text, e = .literal s (.string text) →
    Instant.ofString? text = none ∧ Date.ofString? text = none

inductive Encodable : Expr → Prop
  | literal : value.Encodable → Encodable (.literal s value)
  | property : Encodable (.property s name)
  | operator : Encodable (.operator s token)
  | array : (∀ e ∈ items, Encodable e) → Encodable (.array s items)
  | logical : op = .and ∨ op = .or → Encodable left → Encodable right →
    Encodable (.binary s op left right)
  | plain : op ∈ OfJson.plainOperators → Encodable left → Encodable right →
    Encodable (.binary s op left right)
  | not : Encodable e → Encodable (.unary s .not e)
  | isNull : Encodable e → Encodable (.isNull s false e)
  | advanced : (∀ e ∈ args, Encodable e) → Encodable (.advanced s op false args)
  | call : name.Encodable → (∀ e ∈ args, Encodable e) → Encodable (.call s name args)
  | box : (∀ e ∈ items, Encodable e) → Encodable (.box s items)
  | interval : Encodable start → start.PlainBound → Encodable stop → stop.PlainBound →
    Encodable (.interval s start stop)
  | geometry : g.Finite → Encodable (ofGeometry s g)

end Expr

theorem Json.member?_eq_some {entries : List (String × Json)}
    (h : Entries.get? key entries = some j) :
    member? key entries = some ⟨j, sizeOf_get?_lt h⟩ := by
  unfold member?
  split
  · rename_i hget
    cases hget.symm.trans h
    rfl
  · rename_i hget
    cases hget.symm.trans h

theorem Json.member?_eq_none {entries : List (String × Json)}
    (h : Entries.get? key entries = none) : member? key entries = none := by
  unfold member?
  split
  · rename_i hget
    cases hget.symm.trans h
  · rfl

namespace OfJson

theorem mapM_map {f : Json → Result α} {write : α → Json} {xs : List α}
    (h : ∀ x ∈ xs, f (write x) = .ok x) : (xs.map write).mapM f = .ok xs := by
  induction xs with
  | nil => rfl
  | cons x xs ih =>
    obtain ⟨hx, hxs⟩ := List.forall_mem_cons.1 h
    rw [List.map_cons, List.mapM_cons, hx, ih hxs]
    rfl

theorem ordinate_ofBinary64 (h : x.isFinite = true) : ordinate (.ofBinary64 x) = .ok x := by
  rw [Json.ofBinary64, h]
  rfl

theorem coordinate_toGeoJson {c : Coordinate} (h : c.Finite) : coordinate c.toGeoJson = .ok c := by
  obtain ⟨x, y, z⟩ := c
  obtain ⟨hx, hy, hz⟩ := h
  have hall : ∀ o ∈ [x, y] ++ z.toList, ordinate (.ofBinary64 o) = .ok o := by
    simp only [List.cons_append, List.nil_append, List.forall_mem_cons, Option.mem_toList]
    refine ⟨ordinate_ofBinary64 hx, ordinate_ofBinary64 hy, ?_⟩
    intro o ho
    exact ordinate_ofBinary64 (hz o ho)
  have hordinates : Coordinate.ofOrdinates? ([x, y] ++ z.toList) = some ⟨x, y, z⟩ := by
    cases z <;> rfl
  simp only [coordinate, Coordinate.toGeoJson, expectArray, bind, Except.bind, mapM_map hall,
    hordinates]

theorem coordinateList_lineGeoJson {cs : List Coordinate} (h : ∀ c ∈ cs, c.Finite) :
    coordinateList (lineGeoJson cs) = .ok cs :=
  mapM_map fun c hc => coordinate_toGeoJson (h c hc)

theorem ringList_ringGeoJson {rings : List (List Coordinate)}
    (h : ∀ cs ∈ rings, ∀ c ∈ cs, c.Finite) :
    ringList (ringGeoJson rings) = .ok rings :=
  mapM_map fun cs hcs => coordinateList_lineGeoJson (h cs hcs)

theorem polygonList_map {polygons : List (List (List Coordinate))}
    (h : ∀ rings ∈ polygons, ∀ cs ∈ rings, ∀ c ∈ cs, c.Finite) :
    polygonList (.array (polygons.map ringGeoJson)) = .ok polygons :=
  mapM_map fun rings hr => ringList_ringGeoJson (h rings hr)

/-- A geometry is read from the two members of its object. -/
def ReadsBack (g : Geometry) : Prop :=
  ∃ key j kind, (key = "coordinates" ∨ key = "geometries") ∧
    g.toGeoJson = .object [(key, j), ("type", kind)] ∧
    geometry [(key, j), ("type", kind)] = .ok g

theorem readsBack_simple (hkind : kind ≠ "GeometryCollection")
    (hjson : g.toGeoJson = simpleGeoJson kind coordinates)
    (h : simpleGeometry kind coordinates = .ok g) : ReadsBack g := by
  refine ⟨_, _, _, .inl rfl, hjson, ?_⟩
  have hk : geometryKind [("coordinates", coordinates), ("type", .string kind)] = .ok kind := rfl
  rw [geometry, hk]
  simp only [bind, Except.bind, if_neg hkind]
  exact h

theorem geometryEach_toGeoJsonEach (h : ∀ g ∈ gs, ReadsBack g) :
    geometryEach (Geometry.toGeoJsonEach gs) = .ok gs := by
  induction gs with
  | nil => rw [Geometry.toGeoJsonEach, geometryEach]
  | cons g gs ih =>
    obtain ⟨⟨key, j, kind, -, hjson, hg⟩, hgs⟩ := List.forall_mem_cons.1 h
    rw [Geometry.toGeoJsonEach, hjson, geometryEach, hg, ih hgs]
    rfl

theorem readsBack_collection (h : ∀ g ∈ gs, ReadsBack g) : ReadsBack (.collection gs) := by
  refine ⟨_, _, _, .inr rfl, rfl, ?_⟩
  generalize hjs : Geometry.toGeoJsonEach gs = js
  have hgs : geometryEach js = .ok gs := hjs ▸ geometryEach_toGeoJsonEach h
  have hk : geometryKind [("geometries", .array js), ("type", .string "GeometryCollection")] =
      .ok "GeometryCollection" := rfl
  have hget : Entries.get? "geometries"
      [("geometries", Json.array js), ("type", .string "GeometryCollection")] =
        some (.array js) := rfl
  rw [geometry, hk]
  simp only [bind, Except.bind, if_true, Json.member?_eq_some hget, geometryList, hgs]
  rfl

theorem readsBack_of_finite (h : g.Finite) : ReadsBack g := by
  induction h with
  | point hc =>
    exact readsBack_simple (by decide) rfl (congrArg (Except.map _) (coordinate_toGeoJson hc))
  | lineString hcs | multiPoint hcs =>
    exact readsBack_simple (by decide) rfl
      (congrArg (Except.map _) (coordinateList_lineGeoJson hcs))
  | polygon hrings | multiLineString hrings =>
    exact readsBack_simple (by decide) rfl
      (congrArg (Except.map _) (ringList_ringGeoJson hrings))
  | multiPolygon hpolygons =>
    exact readsBack_simple (by decide) rfl (congrArg (Except.map _) (polygonList_map hpolygons))
  | collection _ ih => exact readsBack_collection ih

theorem operation_logical (h : op = .and ∨ op = .or) (left right : Expr) :
    operation (Text.lower op.name) [left, right] = .ok (.binary .zero op left right) := by
  rcases h with rfl | rfl <;> rfl

theorem operation_plain (h : op ∈ plainOperators) (left right : Expr) :
    operation (Text.lower op.name) [left, right] = .ok (.binary .zero op left right) := by
  simp only [plainOperators, ComparisonOp.all, ArithmeticOp.all, List.map_cons, List.map_nil,
    List.cons_append, List.nil_append, List.mem_cons, List.not_mem_nil, or_false] at h
  rcases h with rfl | rfl | rfl | rfl | rfl | rfl | rfl | rfl | rfl | rfl <;> rfl

theorem operation_call (h : op ∉ operationWords) (args : List Expr) :
    operation op args = .ok (.call .zero (.ofString op) args) := by
  have hfind : plainOperators.find? (·.name = op) = none := by
    rw [List.find?_eq_none]
    intro o ho hname
    exact h (List.mem_append_right _ (List.mem_map.2 ⟨o, ho, of_decide_eq_true hname⟩))
  unfold operation
  -- One case for each word that comes before the functions.
  split
  · exact absurd (by decide) h
  · exact absurd (by decide) h
  · exact absurd (by decide) h
  · exact absurd (by decide) h
  · exact absurd (by decide) h
  · exact absurd (by decide) h
  · exact absurd (by decide) h
  · rw [hfind]

theorem object_operation (op : String) (h : each js = .ok args) :
    object [("args", .array js), ("op", .string op)] = operation (Text.lower op) args := by
  have hget : Entries.get? "args" [("args", Json.array js), ("op", .string op)] =
      some (.array js) := rfl
  simp only [object, Entries.get?, Json.member?_eq_some hget, list, h]
  rfl

theorem object_operator (token : String) :
    object [("op", .string token)] = .ok (.operator .zero token) := by
  have hget : Entries.get? "args" [("op", Json.string token)] = none := rfl
  simp only [object, Json.member?_eq_none hget]
  rfl

theorem object_property (name : String) :
    object [("property", .string name)] = .ok (.property .zero name) := by
  rw [object]
  rfl

theorem object_timestamp (text : String) :
    object [("timestamp", .string text)] = timestamp text := by
  rw [object]
  rfl

theorem object_date (text : String) : object [("date", .string text)] = date text := by
  rw [object]
  rfl

theorem object_interval (bounds : Json) : object [("interval", bounds)] = interval bounds := by
  have hget : Entries.get? "interval" [("interval", bounds)] = some bounds := rfl
  simp only [object, Json.member?_eq_some hget]
  rfl

theorem object_box (h : each js = .ok items) :
    object [("bbox", .array js)] = .ok (.box .zero items) := by
  have hinterval : Entries.get? "interval" [("bbox", Json.array js)] = none := rfl
  have hget : Entries.get? "bbox" [("bbox", Json.array js)] = some (.array js) := rfl
  simp only [object, Json.member?_eq_none hinterval, Json.member?_eq_some hget, list, h]
  rfl

theorem object_geometry (hkey : key = "coordinates" ∨ key = "geometries")
    (h : geometry [(key, j), ("type", kind)] = .ok g) :
    object [(key, j), ("type", kind)] = .ok (.ofGeometry .zero g) := by
  have hinterval : Entries.get? "interval" [(key, j), ("type", kind)] = none := by
    rcases hkey with rfl | rfl <;> rfl
  have hbox : Entries.get? "bbox" [(key, j), ("type", kind)] = none := by
    rcases hkey with rfl | rfl <;> rfl
  simp only [object, Json.member?_eq_none hinterval, Json.member?_eq_none hbox, h]
  rcases hkey with rfl | rfl <;> rfl

theorem each_toJsonFilterEach (h : ∀ e ∈ es, expr e.toJsonFilter = .ok e.unplaced) :
    each (Expr.toJsonFilterEach es) = .ok (Expr.unplacedEach es) := by
  induction es with
  | nil => rw [Expr.toJsonFilterEach, each, Expr.unplacedEach]
  | cons e es ih =>
    obtain ⟨he, hes⟩ := List.forall_mem_cons.1 h
    rw [Expr.toJsonFilterEach, each, he, ih hes]
    rfl

theorem each_toJsonFilter_pair {left right : Expr}
    (hl : expr left.toJsonFilter = .ok left.unplaced)
    (hr : expr right.toJsonFilter = .ok right.unplaced) :
    each [left.toJsonFilter, right.toJsonFilter] = .ok [left.unplaced, right.unplaced] :=
  each_toJsonFilterEach (List.forall_mem_cons.2 ⟨hl, List.forall_mem_singleton.2 hr⟩)

theorem expr_literal (h : value.Encodable) :
    expr value.toJsonFilter = .ok (.literal .zero value) := by
  cases h with
  | null | boolean | string => rw [Literal.toJsonFilter, expr]
  | integer => rw [Literal.toJsonFilter, expr, integerLiteral, Literal.int64?_toInt]
  | number hx => rw [Literal.toJsonFilter, Json.ofBinary64, hx, if_pos rfl, expr]
  | @timestamp t ht =>
    have hread : Instant.ofString? (.ofList t.write) = some t := by
      rw [Instant.ofString?, String.toList_ofList, t.read?_write ht]
    have htimestamp : timestamp (.ofList t.write) = .ok (.literal .zero (.timestamp t)) := by
      simp only [timestamp, hread]
    rw [Literal.toJsonFilter, expr, object_timestamp]
    exact htimestamp
  | @date d =>
    have hread : Date.ofString? (.ofList d.write) = some d := by
      rw [Date.ofString?, String.toList_ofList, d.read?_write]
    have hdate : date (.ofList d.write) = .ok (.literal .zero (.date d)) := by
      simp only [date, hread]
    rw [Literal.toJsonFilter, expr, object_date]
    exact hdate

/-- What bounds an interval is read as it is elsewhere, as long as it is not taken for an instant or
a date. -/
theorem bound_toJsonFilter {e : Expr} (h : expr e.toJsonFilter = .ok e.unplaced)
    (hplain : e.PlainBound) : bound e.toJsonFilter = .ok e.unplaced := by
  cases hjson : e.toJsonFilter with
  | string text =>
    rw [hjson, expr] at h
    cases e with
    | literal s value =>
      cases h
      obtain ⟨hinstant, hdate⟩ := hplain s text rfl
      rw [bound, boundLiteral, hinstant, hdate]
      rfl
    | _ => cases h
  | _ =>
    rw [hjson] at h
    rw [bound]
    · exact h
    · intro text heq
      cases heq

theorem exists_candidates {args : List Expr}
    (h : ∀ e ∈ args, expr e.toJsonFilter = .ok e.unplaced) :
    ∃ es, each (candidatesJson (Expr.toJsonFilterEach args)) = .ok es ∧
      candidates es = Expr.unplacedEach args := by
  -- Any list in second place is taken for the candidates, so its JSON form decides.
  by_cases hlist : ∃ value e items, args = [value, e] ∧ e.toJsonFilter = .array items
  · obtain ⟨value, e, items, rfl, hjson⟩ := hlist
    obtain ⟨hvalue, he⟩ := List.forall_mem_cons.1 h
    have hinner : each [.array items] = .ok [e.unplaced] := by
      rw [← hjson]
      exact each_toJsonFilterEach he
    have hwrapped : expr (.array [.array items]) = .ok (.array .zero [e.unplaced]) := by
      rw [expr, hinner]
      rfl
    refine ⟨[value.unplaced, .array .zero [e.unplaced]], ?_, rfl⟩
    simp only [Expr.toJsonFilterEach, hjson, candidatesJson, each, hvalue, hwrapped]
    rfl
  · refine ⟨Expr.unplacedEach args, ?_, ?_⟩
    · rw [candidatesJson, each_toJsonFilterEach h]
      intro j items hjs
      rw [Expr.toJsonFilterEach_eq_map, List.map_eq_cons_iff] at hjs
      obtain ⟨value, es, rfl, -, hes⟩ := hjs
      obtain ⟨e, rfl, he⟩ := List.map_eq_singleton_iff.1 hes
      exact hlist ⟨value, e, items, rfl, he⟩
    · rw [candidates]
      intro e₀ s items hes
      rw [Expr.unplacedEach_eq_map, List.map_eq_cons_iff] at hes
      obtain ⟨value, es, rfl, -, hes⟩ := hes
      obtain ⟨e, rfl, he⟩ := List.map_eq_singleton_iff.1 hes
      cases e with
      | array => exact hlist ⟨value, _, _, rfl, rfl⟩
      | _ => cases he

theorem expr_operation (op : String) (h : each js = .ok args) :
    expr (operationJson op js) = operation (Text.lower op) args := by
  rw [operationJson, expr, object_operation op h]

theorem expr_toJsonFilter {e : Expr} (h : e.Encodable) : expr e.toJsonFilter = .ok e.unplaced := by
  induction h with
  | literal hvalue => exact expr_literal hvalue
  | property =>
    rw [Expr.toJsonFilter, expr, object_property]
    rfl
  | operator =>
    rw [Expr.toJsonFilter, expr, object_operator]
    rfl
  | array _ ih =>
    rw [Expr.toJsonFilter, expr, each_toJsonFilterEach ih]
    rfl
  | @logical op left right s hop _ _ ihl ihr =>
    have hargs := each_toJsonFilter_pair ihl ihr
    exact (expr_operation op.name hargs).trans (operation_logical hop _ _)
  | @plain op left right s hop _ _ ihl ihr =>
    have hargs := each_toJsonFilter_pair ihl ihr
    exact (expr_operation op.name hargs).trans (operation_plain hop _ _)
  | not _ ih =>
    have hargs := each_toJsonFilterEach (List.forall_mem_singleton.2 ih)
    exact expr_operation "not" hargs
  | isNull _ ih =>
    have hargs := each_toJsonFilterEach (List.forall_mem_singleton.2 ih)
    exact expr_operation "isNull" hargs
  | @advanced args s op _ ih =>
    cases op with
    | like => exact expr_operation "like" (each_toJsonFilterEach ih)
    | between => exact expr_operation "between" (each_toJsonFilterEach ih)
    | isIn =>
      obtain ⟨es, hes, hcandidates⟩ := exists_candidates ih
      refine (expr_operation "in" hes).trans ?_
      exact congrArg (fun args => Except.ok (Expr.advanced .zero .isIn false args)) hcandidates
  | call hname _ ih =>
    obtain ⟨⟨word, rfl⟩, hfree⟩ := hname
    rw [Expr.toJsonFilter, expr_operation _ (each_toJsonFilterEach ih)]
    rw [FunctionName.name_ofString] at hfree ⊢
    rw [Text.lower_lower, operation_call hfree, FunctionName.ofString_lower]
    rfl
  | box _ ih =>
    rw [Expr.toJsonFilter, expr, object_box (each_toJsonFilterEach ih)]
    rfl
  | interval _ hstart _ hstop ihstart ihstop =>
    rw [Expr.toJsonFilter, expr, object_interval, interval, bound_toJsonFilter ihstart hstart,
      bound_toJsonFilter ihstop hstop]
    rfl
  | @geometry s g hg =>
    obtain ⟨key, j, kind, hkey, hjson, hread⟩ := readsBack_of_finite hg
    have hform : (Expr.ofGeometry s g).toJsonFilter = g.toGeoJson := by
      cases g <;> rfl
    rw [hform, hjson, expr, object_geometry hkey hread, Expr.unplaced_ofGeometry]

end OfJson

/-- The JSON form of a filter is read as the filter. A filter that has a text as well is read alike
from both, places apart, and compiled alike. -/
theorem Expr.ofJsonFilter_toJsonFilter {e : Expr} (h : e.Encodable) :
    Expr.ofJsonFilter e.toJsonFilter = .ok e.unplaced ∧
      (e.Printable →
        (Expr.ofText e.toText).map Expr.unplaced = Expr.ofJsonFilter e.toJsonFilter ∧
        ∀ (json : String) (c : Collection) (options : Options),
          Json.parse json = .ok e.toJsonFilter →
          compile e.toText c { options with language := .text } =
            compile json c { options with language := .json }) := by
  have hjson : Expr.ofJsonFilter e.toJsonFilter = .ok e.unplaced := OfJson.expr_toJsonFilter h
  refine ⟨hjson, ?_⟩
  intro hp
  obtain ⟨e', htext, hplaces⟩ := ofText_of_laid hp e.laid_toText
  refine ⟨?_, ?_⟩
  · rw [htext, hjson, ← hplaces]
    rfl
  · intro json c options hparse
    have hread : Expr.ofJsonText json = .ok e'.unplaced := by
      simp only [Expr.ofJsonText, hparse, hjson, hplaces]
    simp only [compile, Expr.read, htext, hread]
    exact (compileExpr_unplaced e' c _).symm

/-- A filter with a list as its only candidate. -/
theorem Expr.ofJsonFilter_toJsonFilter_listed :
    let list : Expr := .array .zero [.literal .zero (.integer 1),
      .literal .zero (.date ⟨2024, 2, 29, by decide⟩)]
    let e : Expr := .unary .zero .not (.advanced .zero .isIn false [.property .zero "kind", list])
    let json := "\x7b\"op\": \"not\", \"args\": [\x7b\"op\": \"in\", \"args\": [" ++
      "\x7b\"property\": \"kind\"\x7d, [[1, \x7b\"date\": \"2024-02-29\"\x7d]]]\x7d]\x7d"
    e.toText = "NOT \"kind\" IN ( ( 1 , DATE ( '2024-02-29' ) ) )" ∧
      e.Encodable ∧ e.Printable ∧ Json.parse json = .ok e.toJsonFilter ∧
      Expr.ofJsonFilter e.toJsonFilter = .ok e ∧
      ∀ c, compile e.toText c {} = compile json c { language := .json } := by
  intro list e json
  have hencodable : e.Encodable := by
    refine .not (.advanced ?_)
    simp only [List.forall_mem_cons]
    refine ⟨.property, .array ?_, nofun⟩
    simp only [List.forall_mem_cons]
    exact ⟨.literal .integer, .literal .date, nofun⟩
  have hprintable : e.Printable := by
    refine .tighter rfl (.tighter rfl (.not (.tighter rfl (.advanced (Nat.le_refl 2) ?_))))
    simp only [List.forall_mem_cons]
    refine ⟨.additive (.atom (.property (by decide))), .additive (.array (by decide) ?_), nofun⟩
    simp only [List.forall_mem_cons]
    exact ⟨.disjunction (.atom (.literal (.integer (by decide)))),
      .disjunction (.atom (.literal .date)), nofun⟩
  have hparse : Json.parse json = .ok e.toJsonFilter := by
    subst json e list
    rfl
  obtain ⟨hread, hagree⟩ := Expr.ofJsonFilter_toJsonFilter hencodable
  exact ⟨by decide +kernel, hencodable, hprintable, hparse, hread,
    fun c => (hagree hprintable).2 json c {} hparse⟩

end FeatureFilter
