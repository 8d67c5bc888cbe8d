import FeatureFilter.Filter.Encoding
import FeatureFilter.Proofs.Dictionary
import FeatureFilter.Proofs.Filter.JsonReadback
import FeatureFilter.Proofs.Filter.Parts

namespace FeatureFilter

open Number (Binary64)
open Text (Span)
open Time (Date Instant)

namespace Json

/-- An order in which objects list their members. -/
structure Arrangement where
  order : List (String × Json) → List (String × Json)
  perm : ∀ members, (order members).Perm members

mutual

/-- A value with the members of all its objects in another order. -/
def arranged (a : Arrangement) : Json → Json
  | .array items => .array (arrangedEach a items)
  | .object members => .object (a.order (arrangedMembers a members))
  | .null => .null
  | .bool b => .bool b
  | .integer n => .integer n
  | .float x => .float x
  | .string s => .string s

def arrangedEach (a : Arrangement) : List Json → List Json
  | [] => []
  | j :: js => j.arranged a :: arrangedEach a js

def arrangedMembers (a : Arrangement) : List (String × Json) → List (String × Json)
  | [] => []
  | (key, j) :: members => (key, j.arranged a) :: arrangedMembers a members

end

namespace Arrangement

def listed : Arrangement := ⟨id, .refl⟩

def byKey : Arrangement :=
  ⟨fun members => members.mergeSort (·.1 ≤ ·.1), fun members => members.mergeSort_perm _⟩

end Arrangement

variable {a : Arrangement}

mutual

theorem arranged_listed (j : Json) : j.arranged .listed = j := by
  cases j with
  | array items => rw [arranged, arrangedEach_listed items]
  | object members =>
    rw [arranged, arrangedMembers_listed members]
    rfl
  | null | bool | integer | float | string => rfl

theorem arrangedEach_listed (js : List Json) : arrangedEach .listed js = js := by
  cases js with
  | nil => rfl
  | cons j js => rw [arrangedEach, arranged_listed j, arrangedEach_listed js]

theorem arrangedMembers_listed (members : List (String × Json)) :
    arrangedMembers .listed members = members := by
  cases members with
  | nil => rfl
  | cons member members =>
    obtain ⟨key, j⟩ := member
    rw [arrangedMembers, arranged_listed j, arrangedMembers_listed members]

end

theorem arranged_tagged (tag : String) (body : Json) :
    (tagged tag body).arranged a = tagged tag (body.arranged a) :=
  congrArg object (List.perm_singleton.1 (a.perm [(tag, body.arranged a)]))

theorem arrangedMembers_eq_map (members : List (String × Json)) :
    arrangedMembers a members = members.map fun m => (m.1, m.2.arranged a) := by
  induction members with
  | nil => rfl
  | cons member members ih => rw [arrangedMembers, ih, List.map_cons]

theorem fields_arranged (a : Arrangement) (keys : List String) (members : List (String × Json))
    (hmembers : members.map (·.1) = keys) (hkeys : keys.Nodup) :
    ∀ m ∈ members, ∃ hlt,
      field? keys m.1 ((object members).arranged a) = some ⟨m.2.arranged a, hlt⟩ := by
  intro m hm
  have hperm := a.perm (arrangedMembers a members)
  have hnames : (arrangedMembers a members).map (·.1) = keys := by
    rw [arrangedMembers_eq_map, List.map_map]
    exact hmembers
  have hget : Entries.get? m.1 (a.order (arrangedMembers a members)) = some (m.2.arranged a) := by
    apply Entries.get?_of_mem
    · rw [(hperm.map _).nodup_iff, hnames]
      exact hkeys
    · rw [hperm.mem_iff, arrangedMembers_eq_map]
      exact List.mem_map_of_mem hm
  rw [arranged, field?, member?_eq_some hget]
  exact ⟨_, rfl⟩

theorem mapM_arrangedEach {f : Json → Option α} {write : α → Json} {xs : List α}
    (h : ∀ x ∈ xs, f ((write x).arranged a) = some x) :
    (arrangedEach a (xs.map write)).mapM f = some xs := by
  induction xs with
  | nil => rfl
  | cons x xs ih =>
    obtain ⟨hx, hxs⟩ := List.forall_mem_cons.1 h
    rw [List.map_cons, arrangedEach, List.mapM_cons, hx, ih hxs]
    rfl

end Json

open Json (Arrangement)

variable {a : Arrangement}

theorem SpatialOp.ofJson?_toJson (op : SpatialOp) : ofJson? op.toJson = some op := by
  cases op <;> rfl

theorem BinaryOp.ofJson?_arranged (op : BinaryOp) : ofJson? (op.toJson.arranged a) = some op := by
  cases op with
  | spatial op =>
    rw [toJson, Json.arranged_tagged]
    exact congrArg (Option.map spatial) op.ofJson?_toJson
  | and | or => rfl
  | comparison op => cases op <;> rfl
  | arithmetic op => cases op <;> rfl

theorem UnaryOp.ofJson?_arranged (op : UnaryOp) : ofJson? (op.toJson.arranged a) = some op := by
  cases op <;> rfl

theorem AdvancedOp.ofJson?_arranged (op : AdvancedOp) :
    ofJson? (op.toJson.arranged a) = some op := by
  cases op <;> rfl

theorem FunctionName.ofJson?_arranged (name : FunctionName) :
    ofJson? (name.toJson.arranged a) = some name := by
  cases name with
  | spatial op =>
    rw [toJson, Json.arranged_tagged]
    exact congrArg (Option.map spatial) op.ofJson?_toJson
  | distanceWithin => rfl
  | other name =>
    rw [toJson, Json.arranged_tagged]
    rfl

theorem Json.getBinary64?_arranged (hx : x.isFinite = true) :
    ((ofBinary64 x).arranged a).getBinary64? = some x := by
  rw [ofBinary64, hx, if_pos rfl]
  rfl

def Literal.Finite : Literal → Prop
  | .number x => x.isFinite = true
  | _ => True

theorem Literal.ofJson?_arranged {value : Literal} (h : value.Finite) :
    ofJson? (value.toJson.arranged a) = some value := by
  cases value with
  | null => rfl
  | boolean | string =>
    rw [toJson, Json.arranged_tagged]
    rfl
  | integer n =>
    rw [toJson, Json.arranged_tagged]
    exact congrArg (Option.map integer) (int64?_toInt n)
  | number x =>
    rw [toJson, Json.arranged_tagged]
    exact congrArg (Option.map number) (Json.getBinary64?_arranged h)
  | timestamp t =>
    have hlist : (toString t).toList = t.write := String.toList_ofList
    have hopen (s : String) : ofJson? (.tagged "Timestamp" (.string s)) =
        (Instant.readLoose? s.toList).map .timestamp := rfl
    rw [toJson, Json.arranged_tagged, Json.arranged, hopen, hlist, t.readLoose?_write]
    rfl
  | date d =>
    have hlist : (toString d).toList = d.write := String.toList_ofList
    have hopen (s : String) : ofJson? (.tagged "Date" (.string s)) =
        (Date.readLoose? s.toList).map .date := rfl
    rw [toJson, Json.arranged_tagged, Json.arranged, hopen, hlist, d.readLoose?_write]
    rfl

theorem spanOfJson?_arranged (s : Span) : spanOfJson? ((spanJson s).arranged a) = some s := by
  have hfields := Json.fields_arranged a spanKeys
    [("start", .integer s.start), ("end", .integer s.stop), ("line", .integer s.line),
      ("column", .integer s.column)] rfl (by decide)
  simp only [List.forall_mem_cons] at hfields
  obtain ⟨⟨_, hstart⟩, ⟨_, hstop⟩, ⟨_, hline⟩, ⟨_, hcolumn⟩, -⟩ := hfields
  rw [spanJson, spanOfJson?, hstart, hstop, hline, hcolumn]
  rfl

theorem Coordinate.ofJson?_arranged {c : Coordinate} (h : c.Finite) :
    ofJson? (c.toJson.arranged a) = some c := by
  obtain ⟨hx, hy, hz⟩ := h
  have hfields := Json.fields_arranged a keys
    [("x", .ofBinary64 c.x), ("y", .ofBinary64 c.y), ("z", .ofOption (c.z.map .ofBinary64))]
    rfl (by decide)
  simp only [List.forall_mem_cons] at hfields
  obtain ⟨⟨_, hxs⟩, ⟨_, hys⟩, ⟨_, hzs⟩, -⟩ := hfields
  rw [toJson, ofJson?, hxs, hys, hzs]
  simp only [Option.bind_eq_bind, Option.bind_some, Json.getBinary64?_arranged hx,
    Json.getBinary64?_arranged hy]
  obtain ⟨x, y, z⟩ := c
  cases z with
  | none => rfl
  | some z =>
    have hz : Json.ofBinary64 z = .float z := if_pos (hz z rfl)
    simp only [Option.map_some, Json.ofOption, hz, Json.arranged, Json.getBinary64?,
      Option.bind_some]

theorem Coordinate.listOfJson?_arranged {cs : List Coordinate} (h : ∀ c ∈ cs, c.Finite) :
    listOfJson? ((Geometry.lineJson cs).arranged a) = some cs := by
  apply Json.mapM_arrangedEach
  intro c hc
  exact ofJson?_arranged (h c hc)

theorem Coordinate.ringsOfJson?_arranged {rings : List (List Coordinate)}
    (h : ∀ cs ∈ rings, ∀ c ∈ cs, c.Finite) :
    ringsOfJson? ((Geometry.ringsJson rings).arranged a) = some rings := by
  apply Json.mapM_arrangedEach
  intro cs hcs
  exact listOfJson?_arranged (h cs hcs)

namespace Geometry

theorem ofJsonEach?_arranged {gs : List Geometry}
    (h : ∀ g ∈ gs, ofJson? (g.toJson.arranged a) = some g) :
    ofJsonEach? (Json.arrangedEach a (toJsonEach gs)) = some gs := by
  induction gs with
  | nil => rfl
  | cons g gs ih =>
    obtain ⟨hg, hgs⟩ := List.forall_mem_cons.1 h
    rw [toJsonEach, Json.arrangedEach, ofJsonEach?, hg, ih hgs]
    rfl

theorem ofJson?_arranged {g : Geometry} (h : g.Finite) :
    ofJson? (g.toJson.arranged a) = some g := by
  induction h with
  | point hc =>
    rw [toJson, Json.arranged_tagged]
    exact congrArg (Option.map point) (Coordinate.ofJson?_arranged hc)
  | lineString hcs =>
    rw [toJson, Json.arranged_tagged]
    exact congrArg (Option.map lineString) (Coordinate.listOfJson?_arranged hcs)
  | polygon hrings =>
    rw [toJson, Json.arranged_tagged]
    exact congrArg (Option.map polygon) (Coordinate.ringsOfJson?_arranged hrings)
  | multiPoint hcs =>
    rw [toJson, Json.arranged_tagged]
    exact congrArg (Option.map multiPoint) (Coordinate.listOfJson?_arranged hcs)
  | multiLineString hlines =>
    rw [toJson, Json.arranged_tagged]
    exact congrArg (Option.map multiLineString) (Coordinate.ringsOfJson?_arranged hlines)
  | @multiPolygon polygons hpolygons =>
    have hread := Json.mapM_arrangedEach (a := a) fun rings hrings =>
      Coordinate.ringsOfJson?_arranged (hpolygons rings hrings)
    rw [toJson, Json.arranged_tagged]
    exact congrArg (Option.map multiPolygon) hread
  | collection _ ih =>
    rw [toJson, Json.arranged_tagged]
    exact congrArg (Option.map collection) (ofJsonEach?_arranged ih)

theorem toJsonEach_eq_map (gs : List Geometry) : toJsonEach gs = gs.map toJson := by
  induction gs with
  | nil => rfl
  | cons g gs ih => rw [toJsonEach, ih, List.map_cons]

end Geometry

namespace Expr

/-- The numbers that stand in a node itself are finite. -/
def HoldsFinite : Expr → Prop
  | .literal _ value => value.Finite
  | .geometry _ g => g.Finite
  | .geometries _ members => ∀ g ∈ members, g.Finite
  | _ => True

def Finite (e : Expr) : Prop := ∀ n, e.Contains n → n.HoldsFinite

theorem Finite.part (h : Finite e) (hm : m ∈ e.parts) : Finite m := by
  intro n hn
  exact h n (.part hm hn)

theorem Finite.of_parts (hself : HoldsFinite e) (hparts : ∀ m ∈ e.parts, Finite m) : Finite e := by
  intro n hn
  cases hn with
  | self => exact hself
  | part hm hn => exact hparts _ hm n hn

theorem ofJson?_node (h : kindOfJson? s (kind.arranged a) = some e) :
    ofJson? ((node s kind).arranged a) = some e := by
  have hfields := Json.fields_arranged a nodeKeys [("kind", kind), ("span", spanJson s)]
    rfl (by decide)
  simp only [List.forall_mem_cons] at hfields
  obtain ⟨⟨_, hkind⟩, ⟨_, hspan⟩, -⟩ := hfields
  rw [node, ofJson?, hspan, hkind]
  simp only [Option.bind_eq_bind, Option.bind_some, spanOfJson?_arranged, h]

theorem arrayOfJson?_arranged {es : List Expr}
    (h : ∀ e ∈ es, ofJson? (e.toJson.arranged a) = some e) :
    arrayOfJson? ((Json.array (toJsonEach es)).arranged a) = some es := by
  rw [Json.arranged, arrayOfJson?]
  induction es with
  | nil => rw [toJsonEach, Json.arrangedEach, eachOfJson?]
  | cons e es ih =>
    obtain ⟨he, hes⟩ := List.forall_mem_cons.1 h
    rw [toJsonEach, Json.arrangedEach, eachOfJson?, he, ih hes]
    rfl

theorem ofJson?_arranged {e : Expr} (h : e.Finite) : ofJson? (e.toJson.arranged a) = some e := by
  induction e with
  | binary s op left right ihl ihr =>
    have hfields := Json.fields_arranged a binaryKeys
      [("left", left.toJson), ("operator", op.toJson), ("right", right.toJson)] rfl (by decide)
    simp only [List.forall_mem_cons] at hfields
    obtain ⟨⟨_, hleft⟩, ⟨_, hop⟩, ⟨_, hright⟩, -⟩ := hfields
    apply ofJson?_node
    rw [Json.arranged_tagged, Json.tagged, kindOfJson?]
    simp only [hleft, hop, hright, Option.bind_eq_bind, Option.bind_some, op.ofJson?_arranged,
      ihl (h.part (.head _)), ihr (h.part (.tail _ (.head _)))]
  | call s name args ih =>
    have hfields := Json.fields_arranged a callKeys
      [("name", name.toJson), ("arguments", .array (toJsonEach args))] rfl (by decide)
    simp only [List.forall_mem_cons] at hfields
    obtain ⟨⟨_, hname⟩, ⟨_, hargs⟩, -⟩ := hfields
    have hread := arrayOfJson?_arranged fun e he => ih e he (h.part he)
    apply ofJson?_node
    rw [Json.arranged_tagged, Json.tagged, kindOfJson?]
    simp only [hname, hargs, Option.bind_eq_bind, Option.bind_some, name.ofJson?_arranged, hread]
  | advanced s op negated args ih =>
    have hfields := Json.fields_arranged a advancedKeys
      [("operator", op.toJson), ("arguments", .array (toJsonEach args)), ("negate", .bool negated)]
      rfl (by decide)
    simp only [List.forall_mem_cons] at hfields
    obtain ⟨⟨_, hop⟩, ⟨_, hargs⟩, ⟨_, hnegate⟩, -⟩ := hfields
    have hread := arrayOfJson?_arranged fun e he => ih e he (h.part he)
    apply ofJson?_node
    rw [Json.arranged_tagged, Json.tagged, kindOfJson?]
    simp only [hop, hargs, hnegate, Option.bind_eq_bind, Option.bind_some, op.ofJson?_arranged,
      hread]
    rfl
  | property s name | operator s name =>
    apply ofJson?_node
    rw [Json.arranged_tagged, Json.tagged, Json.arranged, kindOfJson?]
  | literal s value =>
    apply ofJson?_node
    rw [Json.arranged_tagged, Json.tagged, kindOfJson?, Literal.ofJson?_arranged (h _ .self)]
    rfl
  | geometry s g =>
    apply ofJson?_node
    rw [Json.arranged_tagged, Json.tagged, kindOfJson?, Geometry.ofJson?_arranged (h _ .self)]
    rfl
  | geometries s members =>
    have hread := Geometry.ofJsonEach?_arranged (a := a) fun g hg =>
      Geometry.ofJson?_arranged (h _ .self g hg)
    apply ofJson?_node
    rw [Json.arranged_tagged, Json.tagged, Json.arranged, kindOfJson?,
      ← Geometry.toJsonEach_eq_map, hread]
    rfl
  | box s items ih =>
    apply ofJson?_node
    rw [Json.arranged_tagged, Json.tagged, kindOfJson?,
      arrayOfJson?_arranged fun e he => ih e he (h.part he)]
    rfl
  | array s items ih =>
    apply ofJson?_node
    rw [Json.arranged_tagged, Json.tagged, kindOfJson?,
      arrayOfJson?_arranged fun e he => ih e he (h.part he)]
    rfl
  | unary s op operand ih =>
    have hfields := Json.fields_arranged a unaryKeys
      [("operator", op.toJson), ("operand", operand.toJson)] rfl (by decide)
    simp only [List.forall_mem_cons] at hfields
    obtain ⟨⟨_, hop⟩, ⟨_, hoperand⟩, -⟩ := hfields
    apply ofJson?_node
    rw [Json.arranged_tagged, Json.tagged, kindOfJson?]
    simp only [hop, hoperand, Option.bind_eq_bind, Option.bind_some, op.ofJson?_arranged,
      ih (h.part (.head _))]
  | group s inner ih =>
    apply ofJson?_node
    rw [Json.arranged_tagged, Json.tagged, kindOfJson?, ih (h.part (.head _))]
    rfl
  | isNull s negated operand ih =>
    have hfields := Json.fields_arranged a isNullKeys
      [("operand", operand.toJson), ("negate", .bool negated)] rfl (by decide)
    simp only [List.forall_mem_cons] at hfields
    obtain ⟨⟨_, hoperand⟩, ⟨_, hnegate⟩, -⟩ := hfields
    apply ofJson?_node
    rw [Json.arranged_tagged, Json.tagged, kindOfJson?]
    simp only [hoperand, hnegate, Option.bind_eq_bind, Option.bind_some, ih (h.part (.head _))]
    rfl
  | interval s start stop ihstart ihstop =>
    have hfields := Json.fields_arranged a intervalKeys
      [("start", start.toJson), ("end", stop.toJson)] rfl (by decide)
    simp only [List.forall_mem_cons] at hfields
    obtain ⟨⟨_, hstart⟩, ⟨_, hstop⟩, -⟩ := hfields
    apply ofJson?_node
    rw [Json.arranged_tagged, Json.tagged, kindOfJson?]
    simp only [hstart, hstop, Option.bind_eq_bind, Option.bind_some, ihstart (h.part (.head _)),
      ihstop (h.part (.tail _ (.head _)))]

end Expr

/-- A tree of finite numbers is read back from its JSON form as it was, whatever the order of the
members there, and what is read back compiles alike. -/
theorem Expr.ofJson?_toJson_of_finite {e : Expr} (h : e.Finite) :
    ofJson? e.toJson = some e ∧
      (∀ a : Arrangement, ofJson? (e.toJson.arranged a) = some e) ∧
      ∀ (a : Arrangement) (e' : Expr), ofJson? (e.toJson.arranged a) = some e' →
        ∀ (c : Collection) (options : Options),
          compileExpr e' c options = compileExpr e c options := by
  have hread (a : Arrangement) : ofJson? (e.toJson.arranged a) = some e := ofJson?_arranged h
  refine ⟨?_, hread, ?_⟩
  · have hlisted := hread .listed
    rwa [Json.arranged_listed] at hlisted
  · intro a e' he' c options
    cases (hread a).symm.trans he'
    rfl

/-- A leap second and a point in space. -/
theorem Expr.ofJson?_toJson_of_finite_leapSecond :
    let leap : Instant := ⟨⟨2016, 12, 31, by decide⟩, 86399, 1500000000, by decide⟩
    let place : Geometry := .collection [.point ⟨.ofInt 4, .ofInt (-52), some (.ofInt 7)⟩]
    let e : Expr := .binary ⟨0, 9, 1, 1⟩ .and
      (.isNull ⟨0, 4, 1, 1⟩ true (.literal ⟨0, 2, 1, 1⟩ (.timestamp leap)))
      (.call ⟨5, 9, 2, 1⟩ (.spatial .intersects) [.geometry ⟨6, 8, 2, 2⟩ place])
    toString leap = "2016-12-31T23:59:60.500Z" ∧ e.Finite ∧
      ofJson? (e.toJson.arranged .byKey) = some e := by
  intro leap place e
  have hpoint : (Geometry.point ⟨.ofInt 4, .ofInt (-52), some (.ofInt 7)⟩).Finite :=
    .point ⟨by decide +kernel, by decide +kernel, by decide +kernel⟩
  have hplace : place.Finite := .collection (List.forall_mem_singleton.2 hpoint)
  have hleaf {n : Expr} (hn : n.HoldsFinite) (hparts : n.parts = []) : n.Finite := by
    apply Finite.of_parts hn
    rw [hparts]
    exact List.forall_mem_nil _
  have hfinite : e.Finite := by
    apply Finite.of_parts (show HoldsFinite e from trivial)
    change ∀ m ∈ [_, _], Finite m
    simp only [List.forall_mem_cons]
    refine ⟨?_, ?_, List.forall_mem_nil _⟩
    · apply Finite.of_parts (show HoldsFinite (.isNull _ _ _) from trivial)
      exact List.forall_mem_singleton.2 (hleaf trivial rfl)
    · apply Finite.of_parts (show HoldsFinite (.call _ _ _) from trivial)
      exact List.forall_mem_singleton.2 (hleaf hplace rfl)
  exact ⟨by decide, hfinite, (Expr.ofJson?_toJson_of_finite hfinite).2.1 .byKey⟩

end FeatureFilter
