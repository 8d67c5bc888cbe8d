import FeatureFilter.Proofs.Filter.NumberText
import FeatureFilter.Proofs.Grammar.Tokens

namespace FeatureFilter

open Grammar
open Number (Binary64 Layout)

def Coordinate.Finite (c : Coordinate) : Prop :=
  c.x.isFinite = true ∧ c.y.isFinite = true ∧ ∀ z ∈ c.z, z.isFinite = true

/-- Geometries whose lists all have members and whose ordinates are all numbers. -/
inductive Geometry.Writable : Geometry → Prop
  | point : c.Finite → Writable (.point c)
  | lineString : cs ≠ [] → (∀ c ∈ cs, c.Finite) → Writable (.lineString cs)
  | polygon : rings ≠ [] → (∀ cs ∈ rings, cs ≠ [] ∧ ∀ c ∈ cs, c.Finite) → Writable (.polygon rings)
  | multiPoint : cs ≠ [] → (∀ c ∈ cs, c.Finite) → Writable (.multiPoint cs)
  | multiLineString : lines ≠ [] → (∀ cs ∈ lines, cs ≠ [] ∧ ∀ c ∈ cs, c.Finite) →
    Writable (.multiLineString lines)
  | multiPolygon : polygons ≠ [] →
    (∀ rings ∈ polygons, rings ≠ [] ∧ ∀ cs ∈ rings, cs ≠ [] ∧ ∀ c ∈ cs, c.Finite) →
    Writable (.multiPolygon polygons)
  | collection : gs ≠ [] → (∀ g ∈ gs, Writable g) → Writable (.collection gs)

/-- A way to write ordinates, and the numbers that they are read as. -/
structure OrdinateForm where
  write : Binary64 → List Char
  value : Binary64 → Binary64
  numeral : ∀ x, x.isFinite = true → SignedNumeral (write x)
  reads : ∀ x, x.isFinite = true →
    ∃ l, Literal.ofNumeral? (write x) = some l ∧ l.toBinary64? = some (value x)

/-- With a point, so that no ordinate is taken for an integer. -/
def OrdinateForm.pointed : OrdinateForm where
  write x := (Layout.pointed.write x).toList
  value := id
  numeral _ hx := Literal.signedNumeral_pointed hx
  reads x hx := ⟨.number x, Literal.ofNumeral?_pointed hx, rfl⟩

namespace Coordinate

def tokensAs (form : OrdinateForm) (c : Coordinate) : List (List Char) :=
  [form.write c.x, form.write c.y] ++ (c.z.map form.write).toList

def map (f : Binary64 → Binary64) (c : Coordinate) : Coordinate := ⟨f c.x, f c.y, c.z.map f⟩

theorem map_id : map id = id := by
  funext c
  rw [map, Option.map_id]
  rfl

end Coordinate

def lineTokensAs (form : OrdinateForm) (cs : List Coordinate) : List (List Char) :=
  tupleTokens (cs.map (Coordinate.tokensAs form))

def ringTokensAs (form : OrdinateForm) (rings : List (List Coordinate)) : List (List Char) :=
  tupleTokens (rings.map (lineTokensAs form))

namespace Geometry

mutual

def tokensAs (form : OrdinateForm) : Geometry → List (List Char)
  | .point c => "POINT".toList :: tupleTokens [c.tokensAs form]
  | .lineString cs => "LINESTRING".toList :: lineTokensAs form cs
  | .polygon rings => "POLYGON".toList :: ringTokensAs form rings
  | .multiPoint cs =>
    "MULTIPOINT".toList :: tupleTokens (cs.map fun c => tupleTokens [c.tokensAs form])
  | .multiLineString lines => "MULTILINESTRING".toList :: ringTokensAs form lines
  | .multiPolygon polygons =>
    "MULTIPOLYGON".toList :: tupleTokens (polygons.map (ringTokensAs form))
  | .collection geometries =>
    "GEOMETRYCOLLECTION".toList :: tupleTokens (tokensAsEach form geometries)

def tokensAsEach (form : OrdinateForm) : List Geometry → List (List (List Char))
  | [] => []
  | g :: gs => tokensAs form g :: tokensAsEach form gs

end

def tokens (g : Geometry) : List (List Char) := g.tokensAs .pointed

theorem tokensAsEach_eq_map (form : OrdinateForm) (gs : List Geometry) :
    tokensAsEach form gs = gs.map (tokensAs form) := by
  induction gs with
  | nil => rfl
  | cons g gs ih => rw [tokensAsEach, ih, List.map_cons]

mutual

def mapOrdinates (f : Binary64 → Binary64) : Geometry → Geometry
  | .point c => .point (c.map f)
  | .lineString cs => .lineString (cs.map (·.map f))
  | .polygon rings => .polygon (rings.map (·.map (·.map f)))
  | .multiPoint cs => .multiPoint (cs.map (·.map f))
  | .multiLineString lines => .multiLineString (lines.map (·.map (·.map f)))
  | .multiPolygon polygons => .multiPolygon (polygons.map (·.map (·.map (·.map f))))
  | .collection geometries => .collection (mapOrdinatesEach f geometries)

def mapOrdinatesEach (f : Binary64 → Binary64) : List Geometry → List Geometry
  | [] => []
  | g :: gs => mapOrdinates f g :: mapOrdinatesEach f gs

end

theorem mapOrdinatesEach_eq_map (f : Binary64 → Binary64) (gs : List Geometry) :
    mapOrdinatesEach f gs = gs.map (mapOrdinates f) := by
  induction gs with
  | nil => rfl
  | cons g gs ih => rw [mapOrdinatesEach, ih, List.map_cons]

theorem mapOrdinates_id (hg : Writable g) : g.mapOrdinates id = g := by
  induction hg with
  | collection _ _ ih =>
    rw [mapOrdinates, mapOrdinatesEach_eq_map, List.map_congr_left ih, List.map_id']
  | _ => simp only [mapOrdinates, Coordinate.map_id, id, List.map_id']

end Geometry

theorem SignedNumeral.solid (h : SignedNumeral t) : Solid t := by
  cases h with
  | plain h =>
    obtain ⟨d, ds, rfl, hd⟩ := h.exists_digit
    exact ⟨d, ds, rfl, isBlank_of_isNameChar (Pattern.isNameChar_of_isDigit hd)⟩
  | minus h => exact ⟨_, _, rfl, rfl⟩

theorem Numeral.getLast (h : Numeral t) : ∃ d, t.getLast? = some d ∧ isNameChar d = true := by
  have hlast {ws : List Char} (hne : ws ≠ []) (hall : ws.all Char.isDigit = true) :
      ∃ d, ws.getLast? = some d ∧ isNameChar d = true := by
    refine ⟨_, List.getLast?_eq_some_getLast hne, Pattern.isNameChar_of_isDigit ?_⟩
    exact List.all_eq_true.1 hall _ (List.getLast_mem hne)
  cases h with
  | whole hne hall => exact hlast hne hall
  | pointed _ _ hne hall =>
    obtain ⟨d, hd, hn⟩ := hlast hne hall
    refine ⟨d, ?_, hn⟩
    rw [List.getLast?_append, List.getLast?_cons, hd]
    rfl

theorem SignedNumeral.endsWord (h : SignedNumeral t) (ha : Apart t rest) : EndsWord rest := by
  cases h with
  | plain h =>
    obtain ⟨d, hd, hn⟩ := h.getLast
    exact ha.endsWord hd hn
  | minus h =>
    obtain ⟨d, hd, hn⟩ := h.getLast
    refine ha.endsWord (a := d) ?_ hn
    rw [List.getLast?_cons, hd]
    rfl

theorem takes_signedNumber (h : SignedNumeral t) (follow : List (List Char) → Prop) :
    Takes (.rule .signedNumber) [t] follow (Sole fun u => ∃ s, u = .token .signedNumber s t) :=
  .token rfl h.solid (fun _ ha => Pattern.scan_signedNumber h (h.endsWord ha)) follow

section Forms

variable (form : OrdinateForm)

theorem takes_ordinate (hx : x.isFinite = true) (follow : List (List Char) → Prop) :
    Takes (.rule .signedNumber) [form.write x] follow
      (Sole fun t => ∀ s, OfText.ordinate s t = .ok (form.value x)) := by
  apply (takes_signedNumber (form.numeral x hx) follow).sole
  rintro t ⟨s', rfl⟩ s
  obtain ⟨l, hl, hvalue⟩ := form.reads x hx
  exact OfText.ordinate_token hl hvalue _ s s'

theorem refuses_signedNumber (hks : Stops closers ks) : Refuses (.rule .signedNumber) ks := by
  have hmiss : ∀ t ∈ closers, ∀ rest,
      (Pattern.seq (.optional .sign) .number).scan (t ++ rest) = none := by
    rintro t (_ | ⟨_, _ | ⟨_, ⟨⟩⟩⟩) <;> exact fun _ => rfl
  exact .of_stops rfl rfl solid_of_mem_closers hmiss hks

/-- The tree of a rule, which stands for a value. -/
def Stands (r : Rule) (read : ParseTree Rule → OfText.Result α) (a : α) (t : ParseTree Rule) :
    Prop :=
  ∃ s us, t = .node r s us ∧ read t = .ok a

theorem takes_coordinate {c : Coordinate} (hc : c.Finite) :
    Takes (.rule .coordinate) (c.tokensAs form) (Stops closers)
      (Sole (Stands .coordinate OfText.coordinate (c.map form.value))) := by
  obtain ⟨x, y, z⟩ := c
  obtain ⟨hx, hy, hz⟩ := hc
  have hx := takes_ordinate form hx fun _ => True
  have hy := takes_ordinate form hy fun _ => True
  cases z with
  | none =>
    have habsent : Takes (.optional (.rule .signedNumber)) [] (Stops closers) (· = []) :=
      .absent (fun _ hks t ht => solid_of_mem_closers t (hks t ht)) fun _ => refuses_signedNumber
    have hall := hx.seq (hy.seq habsent fun _ _ => trivial) fun _ _ => trivial
    apply Takes.rule rfl hall
    rintro s us ⟨_, _, rfl, ⟨tx, rfl, htx⟩, _, _, rfl, ⟨ty, rfl, hty⟩, rfl⟩
    have hmap : [tx, ty].mapM (OfText.ordinate s) = .ok [form.value x, form.value y] := by
      rw [List.mapM_cons, htx s, List.mapM_cons, hty s]
      rfl
    exact ⟨_, _, rfl, OfText.coordinate_node hmap rfl⟩
  | some z =>
    have hz := (takes_ordinate form (hz z rfl) (Stops closers)).optional
    have hall := hx.seq (hy.seq hz fun _ _ => trivial) fun _ _ => trivial
    apply Takes.rule rfl hall
    rintro s us ⟨_, _, rfl, ⟨tx, rfl, htx⟩, _, _, rfl, ⟨ty, rfl, hty⟩, tz, rfl, htz⟩
    have hmap : [tx, ty, tz].mapM (OfText.ordinate s) =
        .ok [form.value x, form.value y, form.value z] := by
      rw [List.mapM_cons, htx s, List.mapM_cons, hty s, List.mapM_cons, htz s]
      rfl
    exact ⟨_, _, rfl, OfText.coordinate_node hmap rfl⟩

theorem mapM_of_forall₂ {read : ParseTree Rule → OfText.Result α}
    (h : List.Forall₂ (Stands r read) xs ts) : ts.mapM read = .ok xs := by
  induction h with
  | nil => rfl
  | cons hx _ ih =>
    obtain ⟨s, us, rfl, hread⟩ := hx
    rw [List.mapM_cons, hread, ih]
    rfl

theorem takes_list {α β : Type} {tokens : α → List (List Char)} {value : α → β}
    {read : ParseTree Rule → OfText.Result β} {readList : ParseTree Rule → OfText.Result (List β)}
    {xs : List α} (hr : cql2.define r = .phrase (.tuple (.rule item)))
    (hread : ∀ s ts, readList (.node r s ts) = ts.mapM read) (hne : xs ≠ [])
    (h : ∀ x ∈ xs, Takes (.rule item) (tokens x) (Stops closers)
      (Sole (Stands item read (value x))))
    (follow : List (List Char) → Prop) :
    Takes (.rule r) (tupleTokens (xs.map tokens)) follow
      (Sole (Stands r readList (xs.map value))) := by
  apply Takes.rule hr (takes_tuple hne h follow)
  intro s us hus
  have hus := List.forall₂_map_left_iff.2 hus
  exact ⟨s, us, rfl, (hread s us).trans (mapM_of_forall₂ hus)⟩

theorem takes_coordinateList {cs : List Coordinate} (h : cs ≠ [] ∧ ∀ c ∈ cs, c.Finite)
    (follow : List (List Char) → Prop) :
    Takes (.rule .coordinateList) (lineTokensAs form cs) follow
      (Sole (Stands .coordinateList OfText.coordinateList (cs.map (·.map form.value)))) :=
  takes_list rfl (fun _ _ => rfl) h.1 (fun c hc => takes_coordinate form (h.2 c hc)) follow

theorem takes_ringList {rings : List (List Coordinate)}
    (h : rings ≠ [] ∧ ∀ cs ∈ rings, cs ≠ [] ∧ ∀ c ∈ cs, c.Finite)
    (follow : List (List Char) → Prop) :
    Takes (.rule .ringList) (ringTokensAs form rings) follow
      (Sole (Stands .ringList OfText.ringList (rings.map (·.map (·.map form.value))))) :=
  takes_list rfl (fun _ _ => rfl) h.1 (fun cs hcs => takes_coordinateList form (h.2 cs hcs) _)
    follow

theorem takes_polygonList {polygons : List (List (List Coordinate))}
    (h : polygons ≠ [] ∧
      ∀ rings ∈ polygons, rings ≠ [] ∧ ∀ cs ∈ rings, cs ≠ [] ∧ ∀ c ∈ cs, c.Finite)
    (follow : List (List Char) → Prop) :
    Takes (.rule .polygonList) (tupleTokens (polygons.map (ringTokensAs form))) follow
      (Sole (Stands .polygonList OfText.polygonList
        (polygons.map (·.map (·.map (·.map form.value)))))) :=
  takes_list rfl (fun _ _ => rfl) h.1 (fun rings hr => takes_ringList form (h.2 rings hr) _) follow

theorem takes_noMark : Takes (.optional (.rule .kwZ)) [] (Stops [['(']]) (· = []) := by
  have hsolid : ∀ t ∈ [['(']], Solid t := List.forall_mem_singleton.2 ⟨_, _, rfl, rfl⟩
  exact .absent (fun _ hks t ht => hsolid t (hks t ht)) fun _ hks =>
    .of_stops rfl rfl hsolid (List.forall_mem_singleton.2 fun _ => rfl) hks

theorem takes_geometryText (hkw : cql2.define kw = .token (.keyword w)) (ht : Spelling w t)
    (hr : cql2.define r = .phrase (.geometryText kw x)) (hx : Takes x (['('] :: ts) follow P) :
    Takes (.rule r) (t :: ['('] :: ts) follow
      (Sole fun u => ∃ s s' us, u = .node r s (.token kw s' t :: us) ∧ P us) := by
  have hcontent := takes_noMark.seq hx fun ks _ => .cons (List.mem_singleton_self _) _
  have hword := Takes.keyword hkw ht fun _ => True
  apply Takes.rule hr (hword.seq hcontent fun _ _ => trivial)
  rintro s us ⟨_, _, rfl, ⟨_, rfl, s', rfl⟩, _, v, rfl, rfl, hv⟩
  exact ⟨s, s', v, rfl, hv⟩

theorem takes_sole {read : ParseTree Rule → OfText.Result α} (make : α → Geometry)
    (hkw : cql2.define kw = .token (.keyword w)) (ht : Spelling w t)
    (hr : cql2.define r = .phrase (.geometryText kw x))
    (hread : ∀ s us, OfText.geometry (.node r s us) =
      (do return make (← read (← OfText.soleContent item s us))))
    (hx : Takes x (['('] :: ts) follow (Sole (Stands item read a))) :
    Takes (.rule r) (t :: ['('] :: ts) follow
      (Sole fun u => OfText.geometry u = .ok (make a)) := by
  apply (takes_geometryText hkw ht hr hx).sole
  rintro _ ⟨s, s', us, rfl, u, rfl, s'', vs, rfl, hu⟩
  refine (hread _ _).trans ?_
  show (do return make (← read (.node item s'' vs))) = _
  rw [hu]
  rfl

theorem takes_inParens {c : Coordinate} (hc : c.Finite) (follow : List (List Char) → Prop) :
    Takes (.parens (.rule .coordinate)) (tupleTokens [c.tokensAs form]) follow
      (Sole (Stands .coordinate OfText.coordinate (c.map form.value))) := by
  have hclosed (ks : List (List Char)) (hks : Stops [[')']] ks) : Stops closers ks :=
    hks.mono (by decide)
  have hinside := (takes_coordinate form hc).narrow hclosed
  have htokens : commaTokens [c.tokensAs form] = c.tokensAs form := List.append_nil _
  rw [tupleTokens, htokens]
  exact hinside.parens follow

theorem takes_literal (n : Nat) (hn : geometryRules[n]? = some r) (ht : Solid t)
    (hmiss : ∀ rest, (geometryRules.take n).all (cql2.misses 2 (t ++ rest)) = true)
    (h : Takes (.rule r) (t :: ts) follow (Sole fun u => OfText.geometry u = .ok g)) :
    Takes (.rule .geometryLiteral) (t :: ts) follow
      (Sole (Stands .geometryLiteral OfText.geometry g)) := by
  have hany := Takes.anyOf n hn (fun q hq ks _ => .of_misses ht
    (fun rest => List.all_eq_true.1 (hmiss rest) q hq) _) h
  apply Takes.rule rfl hany
  rintro s us ⟨u, rfl, hu⟩
  exact ⟨s, [u], rfl, hu⟩

theorem geometryEach_of_forall₂
    (h : List.Forall₂ (Stands .geometryLiteral OfText.geometry) gs ts) :
    OfText.geometryEach ts = .ok gs := by
  induction h with
  | nil => rfl
  | cons hg _ ih =>
    obtain ⟨s, us, rfl, hg⟩ := hg
    rw [OfText.geometryEach, hg, ih]
    rfl

theorem content_of_forall₂ {read : ParseTree Rule → OfText.Result α}
    (h : List.Forall₂ (Stands item read) xs ts) (kw : Rule) (s : Text.Span) (t : List Char) :
    OfText.content (.token kw s t :: ts) = ts := by
  cases h with
  | nil => rfl
  | cons hx =>
    obtain ⟨s, us, rfl, -⟩ := hx
    rfl

theorem takes_multiPoint {cs : List Coordinate} (hne : cs ≠ []) (hcs : ∀ c ∈ cs, c.Finite)
    (follow : List (List Char) → Prop) :
    Takes (.rule .multiPointText) ((Geometry.multiPoint cs).tokensAs form) follow
      (Sole fun t => OfText.geometry t = .ok (.multiPoint (cs.map (·.map form.value)))) := by
  have hmember : ∀ c ∈ cs, Takes .multiPointMember (tupleTokens [c.tokensAs form]) (Stops closers)
      (Sole (Stands .coordinate OfText.coordinate (c.map form.value))) :=
    fun c hc => (takes_inParens form (hcs c hc) _).choiceLeft _
  have hmembers := takes_tuple hne hmember follow
  apply (takes_geometryText (r := .multiPointText) (t := "MULTIPOINT".toList) rfl
    ⟨nofun, rfl, rfl⟩ rfl hmembers).sole
  rintro _ ⟨s, s', us, rfl, hus⟩
  have hus := List.forall₂_map_left_iff.2 hus
  simp only [OfText.geometry]
  rw [content_of_forall₂ hus, mapM_of_forall₂ hus]
  rfl

theorem takes_collection {gs : List Geometry} (hne : gs ≠ [])
    (h : ∀ g ∈ gs, Takes (.rule .geometryLiteral) (g.tokensAs form) (Stops closers)
      (Sole (Stands .geometryLiteral OfText.geometry (g.mapOrdinates form.value))))
    (follow : List (List Char) → Prop) :
    Takes (.rule .geometryCollectionText) ((Geometry.collection gs).tokensAs form) follow
      (Sole fun t =>
        OfText.geometry t = .ok ((Geometry.collection gs).mapOrdinates form.value)) := by
  have hword := Takes.keyword (r := .kwGeometryCollection) (t := "GEOMETRYCOLLECTION".toList) rfl
    ⟨nofun, rfl, rfl⟩ fun _ => True
  have hall := hword.seq (takes_tuple hne h follow) fun _ _ => trivial
  rw [Geometry.tokensAs, Geometry.tokensAsEach_eq_map, Geometry.mapOrdinates,
    Geometry.mapOrdinatesEach_eq_map]
  apply Takes.rule rfl hall
  rintro s us ⟨_, v, rfl, ⟨_, rfl, s', rfl⟩, hv⟩
  show (do return Geometry.collection (← OfText.geometryEach v)) = _
  rw [geometryEach_of_forall₂ (List.forall₂_map_left_iff.2 hv)]
  rfl

/-- Where the tokens of a geometry stand, the geometry is read, with the numbers that its ordinates
are read as. -/
theorem takes_geometryAs {g : Geometry} (hg : g.Writable) (follow : List (List Char) → Prop) :
    Takes (.rule .geometryLiteral) (g.tokensAs form) follow
      (Sole (Stands .geometryLiteral OfText.geometry (g.mapOrdinates form.value))) := by
  induction hg generalizing follow with
  | point hc =>
    have hpoint := takes_sole (r := .pointText) (t := "POINT".toList) .point rfl
      ⟨nofun, rfl, rfl⟩ rfl (fun _ _ => rfl) (takes_inParens form hc follow)
    exact takes_literal 0 rfl ⟨_, _, rfl, rfl⟩ (fun _ => rfl) hpoint
  | lineString hne hcs =>
    have hline := takes_sole (r := .lineStringText) (t := "LINESTRING".toList) .lineString rfl
      ⟨nofun, rfl, rfl⟩ rfl (fun _ _ => rfl) (takes_coordinateList form ⟨hne, hcs⟩ follow)
    exact takes_literal 1 rfl ⟨_, _, rfl, rfl⟩ (fun _ => rfl) hline
  | polygon hne hrings =>
    have hpolygon := takes_sole (r := .polygonText) (t := "POLYGON".toList) .polygon rfl
      ⟨nofun, rfl, rfl⟩ rfl (fun _ _ => rfl) (takes_ringList form ⟨hne, hrings⟩ follow)
    exact takes_literal 2 rfl ⟨_, _, rfl, rfl⟩ (fun _ => rfl) hpolygon
  | multiPoint hne hcs =>
    have hpoints := takes_multiPoint form hne hcs follow
    exact takes_literal 3 rfl ⟨_, _, rfl, rfl⟩ (fun _ => rfl) hpoints
  | multiLineString hne hlines =>
    have hlines := takes_sole (r := .multiLineStringText) (t := "MULTILINESTRING".toList)
      .multiLineString rfl ⟨nofun, rfl, rfl⟩ rfl (fun _ _ => rfl)
      (takes_ringList form ⟨hne, hlines⟩ follow)
    exact takes_literal 4 rfl ⟨_, _, rfl, rfl⟩ (fun _ => rfl) hlines
  | multiPolygon hne hpolygons =>
    have hpolygons := takes_sole (r := .multiPolygonText) (t := "MULTIPOLYGON".toList)
      .multiPolygon rfl ⟨nofun, rfl, rfl⟩ rfl (fun _ _ => rfl)
      (takes_polygonList form ⟨hne, hpolygons⟩ follow)
    exact takes_literal 5 rfl ⟨_, _, rfl, rfl⟩ (fun _ => rfl) hpolygons
  | collection hne _ ih =>
    exact takes_literal 6 rfl ⟨_, _, rfl, rfl⟩ (fun _ => rfl)
      (takes_collection form hne (fun g hg => ih g hg _) follow)

end Forms

theorem takes_geometry (hg : g.Writable) (follow : List (List Char) → Prop) :
    Takes (.rule .geometryLiteral) g.tokens follow
      (Sole (Stands .geometryLiteral OfText.geometry g)) := by
  have htakes := takes_geometryAs .pointed hg follow
  rwa [OrdinateForm.pointed, Geometry.mapOrdinates_id hg] at htakes

end FeatureFilter
