import FeatureFilter.Geometry.Wkt
import FeatureFilter.Proofs.Filter.BareNames

namespace FeatureFilter

open Grammar
open Number (Binary64 Layout)
open Time (digitsValue)

namespace Number.Binary64

/-- Zero without its sign, and all other numbers as they are. -/
def unsignZero (x : Binary64) : Binary64 := if x.isZero then .zero false else x

/-- The number of units that a double stands for; an infinity stands for none. -/
def value? (x : Binary64) : Option Int :=
  if x.isFinite then some (if x.isNegative then -x.units else x.units) else none

theorem value?_of_isZero {x : Binary64} (h : x.isZero = true) : x.value? = some 0 := by
  obtain ⟨hfinite, hunits⟩ := Bool.and_eq_true_iff.1 h
  rw [value?, if_pos hfinite, eq_of_beq hunits]
  split <;> rfl

theorem value?_unsignZero (x : Binary64) : x.unsignZero.value? = x.value? := by
  cases h : x.isZero with
  | true =>
    rw [unsignZero, if_pos h, value?_of_isZero h]
    rfl
  | false => rw [unsignZero, h, if_neg Bool.false_ne_true]

theorem ofDecimal_whole (hm : m ≠ 0) (h : (ofDecimal negative ⟨m, 0⟩).isFinite = true) :
    ofDecimal negative ⟨m, 0⟩ = ofRatio negative m 1 := by
  have hratio : Decimal.ratio ⟨m, 0⟩ = (m, 1) := by
    rw [Decimal.ratio, if_pos (Int.le_refl 0)]
    exact congrArg (·, 1) (Nat.mul_one m)
  have hlow : ¬((0 : Int) + digitCount m < -330) := by omega
  simp only [ofDecimal, hm, hlow, or_self, if_false, hratio] at h ⊢
  split
  · rename_i htop
    rw [if_pos htop] at h
    cases h
  · rfl

end Number.Binary64

namespace Literal

theorem toInt_of_int64? (h : int64? i = some n) : n.toInt = i := by
  rw [int64?] at h
  split at h
  · rename_i hrange
    cases h
    exact Int64.toInt_ofInt_of_le hrange.1 (Int.lt_add_one_of_le hrange.2)
  · cases h

theorem decimal?_whole (hne : cs ≠ []) (h : cs.all Char.isDigit = true) :
    decimal? cs = some ⟨digitsValue cs, 0⟩ := by
  have happend : decimal? (cs ++ [] ++ []) = _ := decimal?_append h (.inl rfl) (by simp)
  rw [List.append_nil, List.append_nil, List.drop_nil, List.append_nil, digits?_eq hne h] at happend
  exact happend

def WholeText (cs : List Char) (x : Binary64) : Prop :=
  cs ≠ [] ∧ cs.all Char.isDigit = true ∧ Binary64.ofDecimal false ⟨digitsValue cs, 0⟩ = x

theorem wholeText_of_nonneg (hne : ds ≠ []) (hall : ds.all Char.isDigit = true) (he : 0 ≤ e) :
    WholeText (Layout.plain.positionalText ds e)
      (Binary64.ofDecimal false ⟨digitsValue ds, e⟩) := by
  have htext : Layout.plain.positionalText ds e = ds ++ List.replicate e.toNat '0' := by
    rw [Layout.positionalText, if_pos he]
    exact List.append_nil _
  have hexponent : (0 : Int) + e.toNat = e := by omega
  rw [htext]
  refine ⟨List.append_ne_nil_of_left_ne_nil hne _, ?_, ?_⟩
  · rw [List.all_append, hall, all_isDigit_zeros]
    rfl
  · rw [digitsValue_append_zeros, Binary64.ofDecimal_mul_pow, hexponent]

/-- A number other than zero is written with digits alone, or with digits on both sides of a
point. -/
theorem magnitudeText_plain (hx : x.isFinite = true) (hzero : ¬x.isZero = true) :
    WholeText (Layout.plain.magnitudeText x) (x.withSign false) ∨
      PointedText (Layout.plain.magnitudeText x) (x.withSign false) := by
  have hvalue := Binary64.ofDecimal_shortest .up hx
  have htext : Layout.plain.magnitudeText x = Layout.plain.positionalText
      (Nat.toDigits 10 (Binary64.shortest .up x).digits) (Binary64.shortest .up x).exponent := by
    rw [Layout.magnitudeText, if_neg hzero]
    rfl
  rw [htext, ← hvalue]
  generalize Binary64.shortest .up x = d
  have hall := all_isDigit_toDigits d.digits
  by_cases he : 0 ≤ d.exponent
  · have hwhole := wholeText_of_nonneg Nat.toDigits_ne_nil hall he
    rw [digitsValue_toDigits] at hwhole
    exact .inl hwhole
  · -- With places behind the point both layouts are the same.
    have hpointed := pointedText_positionalText Nat.toDigits_ne_nil hall d.exponent
    rw [digitsValue_toDigits, Layout.positionalText, if_neg he] at hpointed
    rw [Layout.positionalText, if_neg he]
    exact .inr hpointed

theorem WholeText.numeral (h : WholeText cs x) : Numeral cs := .whole h.1 h.2.1

theorem toBinary64?_of_wholeText (hx : x.isFinite = true) (hzero : ¬x.isZero = true)
    (h : WholeText body (x.withSign false)) (hsplit : splitSign cs = (x.isNegative, body)) :
    ∃ l, ofNumeral? cs = some l ∧ l.toBinary64? = some x := by
  obtain ⟨hne, hall, hvalue⟩ := h
  have hm : digitsValue body ≠ 0 := by
    intro hm
    rw [hm] at hvalue
    have hisZero : (x.withSign false).isZero = x.isZero := by cases x <;> rfl
    rw [← hisZero, ← hvalue] at hzero
    exact hzero rfl
  have hreal : Binary64.ofDecimal x.isNegative ⟨digitsValue body, 0⟩ = x := by
    rw [Binary64.ofDecimal_withSign, hvalue, Binary64.withSign_isNegative]
  have hratio : Binary64.ofRatio x.isNegative (digitsValue body) 1 = x := by
    rw [← Binary64.ofDecimal_whole hm (by rw [hreal]; exact hx), hreal]
  cases hn : int64? (if x.isNegative then -(digitsValue body : Int) else digitsValue body) with
  | none =>
    refine ⟨.number x, ?_, rfl⟩
    simp only [ofNumeral?, hsplit, digits?_eq hne hall, Option.bind_some, hn, binary64?,
      decimal?_whole hne hall, hreal, Option.map_some]
  | some n =>
    have hsign : decide (n.toInt < 0) = x.isNegative ∧ n.toInt.natAbs = digitsValue body := by
      rw [toInt_of_int64? hn]
      cases x.isNegative with
      | true =>
        rw [if_pos rfl, decide_eq_true_iff]
        omega
      | false =>
        rw [if_neg Bool.false_ne_true, decide_eq_false_iff_not]
        omega
    refine ⟨.integer n, ?_, ?_⟩
    · simp only [ofNumeral?, hsplit, digits?_eq hne hall, Option.bind_some, hn]
    · simp only [toBinary64?, Binary64.ofInt, hsign, hratio]

theorem toBinary64?_plain (hx : x.isFinite = true) :
    SignedNumeral (Layout.plain.write x).toList ∧
      ∃ l, ofNumeral? (Layout.plain.write x).toList = some l ∧
        l.toBinary64? = some x.unsignZero := by
  by_cases hzero : x.isZero = true
  · have htext : Layout.plain.magnitudeText x = ['0'] := by
      rw [Layout.magnitudeText, if_pos hzero]
      rfl
    have hnumeral : Numeral (Layout.plain.magnitudeText x) := by
      rw [htext]
      exact .whole (List.cons_ne_nil _ _) rfl
    refine ⟨signedNumeral_write .plain hx hnumeral, ?_⟩
    rw [toList_write .plain hx, htext, Binary64.unsignZero, if_pos hzero]
    refine ⟨.integer 0, ?_, by decide +kernel⟩
    cases x.isNegative with
    | true => decide +kernel
    | false => decide +kernel
  · rw [Binary64.unsignZero, if_neg hzero]
    rcases magnitudeText_plain hx hzero with h | h
    · exact ⟨signedNumeral_write .plain hx h.numeral,
        toBinary64?_of_wholeText hx hzero h (splitSign_write .plain hx h.numeral)⟩
    · exact ⟨signedNumeral_write .plain hx h.numeral, .number x,
        ofNumeral?_of_pointedText h (splitSign_write .plain hx h.numeral), rfl⟩

end Literal

/-- Without a point in whole numbers, as in well-known text. -/
def OrdinateForm.plain : OrdinateForm where
  write x := (Layout.plain.write x).toList
  value := Binary64.unsignZero
  numeral _ hx := (Literal.toBinary64?_plain hx).1
  reads _ hx := (Literal.toBinary64?_plain hx).2

namespace Grammar

def punctuation : List Char := ['(', ')', ',']

/-- Punctuation is no part of a greater token, with whatever stands in front of it or behind it. -/
theorem joins_punctuation : ∀ m ∈ punctuation, ∀ b, joins m b = false ∧ joins b m = false := by
  have hkind : punctuation.all fun m =>
      !isNameChar m && m != '\'' && m != '<' && m != '>' && m != '=' := by
    decide
  intro m hm b
  have hm := List.all_eq_true.1 hkind m hm
  simp only [Bool.and_eq_true, Bool.not_eq_true', bne_iff_ne] at hm
  obtain ⟨⟨⟨⟨hname, hquote⟩, hless⟩, hgreater⟩, hequal⟩ := hm
  simp [joins, hname, hquote, hless, hgreater, hequal]

theorem Laid.punctuation (h : Laid ts rest) (hm : m ∈ punctuation) :
    Laid ([m] :: ts) (m :: rest) := by
  apply Laid.cons [] rfl ?_ h
  rintro _ ⟨⟩ b -
  exact (joins_punctuation m hm b).1

theorem Laid.beforePunctuation (h : Laid ts rest)
    (hrest : ∀ b ∈ rest.head?, b ∈ Grammar.punctuation) (t : List Char) :
    Laid (t :: ts) (t ++ rest) := by
  apply Laid.cons [] rfl ?_ h
  intro a _ b hb
  exact (joins_punctuation b (hrest b hb) a).2

end Grammar

/-- The text of tokens, in front of punctuation or at the end. -/
def LaidBefore (ts : List (List Char)) (cs : List Char) : Prop :=
  ∀ ks rest, Laid ks rest → (∀ b ∈ rest.head?, b ∈ punctuation) → Laid (ts ++ ks) (cs ++ rest)

namespace LaidBefore

theorem token (t : List Char) : LaidBefore [t] t :=
  fun _ _ hl hrest => hl.beforePunctuation hrest t

theorem blank (h : LaidBefore ts cs) (t : List Char) : LaidBefore (t :: ts) (t ++ ' ' :: cs) := by
  intro ks rest hl hrest
  rw [List.append_assoc]
  exact .cons [] rfl (.blank t _) (h ks rest hl hrest).blank

theorem commas {tokens : α → List (List Char)} {text : α → List Char} {xs : List α}
    (h : ∀ x ∈ xs, LaidBefore (tokens x) (text x)) :
    LaidBefore (commaTokens (xs.map tokens)) ([','].intercalate (xs.map text)) := by
  induction xs with
  | nil =>
    intro ks rest hl _
    exact hl
  | cons x xs ih =>
    obtain ⟨hx, hxs⟩ := List.forall_mem_cons.1 h
    intro ks rest hl hrest
    cases xs with
    | nil =>
      have htokens : commaTokens [tokens x] = tokens x := List.append_nil _
      rw [List.map_singleton, List.map_singleton, htokens, List.intercalate_singleton]
      exact hx ks rest hl hrest
    | cons y ys =>
      have htokens : commaTokens ((x :: y :: ys).map tokens) =
          tokens x ++ [','] :: commaTokens ((y :: ys).map tokens) := rfl
      have htext : [','].intercalate ((x :: y :: ys).map text) =
          text x ++ ',' :: [','].intercalate ((y :: ys).map text) := by
        simp only [List.map_cons, List.intercalate_cons_cons, List.append_assoc,
          List.singleton_append]
      have hmore := (ih hxs ks rest hl hrest).punctuation (m := ',') (by decide)
      rw [htokens, htext, List.append_assoc, List.append_assoc]
      apply hx _ _ hmore
      rintro _ ⟨⟩
      decide

theorem tuple {tokens : α → List (List Char)} {text : α → String} {xs : List α}
    (h : ∀ x ∈ xs, LaidBefore (tokens x) (text x).toList) :
    LaidBefore (tupleTokens (xs.map tokens)) (wktList (xs.map text)).toList := by
  intro ks rest hl hrest
  have htext : (wktList (xs.map text)).toList =
      '(' :: ([','].intercalate (xs.map fun x => (text x).toList) ++ [')']) := by
    simp [wktList, String.toList_intercalate, Function.comp_def]
  have hclose := hl.punctuation (m := ')') (by decide)
  have hinside := commas h _ _ hclose (by rintro _ ⟨⟩; decide)
  have hopen := hinside.punctuation (m := '(') (by decide)
  rw [htext, tupleTokens]
  simpa only [List.cons_append, List.append_assoc, List.nil_append] using hopen

theorem keyword (h : LaidBefore ts (wktList parts).toList) (w : String) :
    LaidBefore (w.toList :: ts) (w ++ wktList parts).toList := by
  have hopen : ∃ cs, (wktList parts).toList = '(' :: cs := by
    simp [wktList]
  obtain ⟨cs, hcs⟩ := hopen
  intro ks rest hl hrest
  have hlist := h ks rest hl hrest
  rw [String.toList_append, List.append_assoc]
  rw [hcs] at hlist ⊢
  apply hlist.beforePunctuation
  rintro _ ⟨⟩
  decide

end LaidBefore

theorem laidBefore_coordinate (c : Coordinate) : LaidBefore (c.tokensAs .plain) c.wkt.toList := by
  obtain ⟨x, y, z⟩ := c
  cases z with
  | none =>
    have hplane := (LaidBefore.token (Layout.plain.write y).toList).blank
      (Layout.plain.write x).toList
    simpa [Coordinate.wkt, Coordinate.tokensAs, OrdinateForm.plain] using hplane
  | some z =>
    have hspace := ((LaidBefore.token (Layout.plain.write z).toList).blank
      (Layout.plain.write y).toList).blank (Layout.plain.write x).toList
    simpa [Coordinate.wkt, Coordinate.tokensAs, OrdinateForm.plain] using hspace

theorem laidBefore_line (cs : List Coordinate) :
    LaidBefore (lineTokensAs .plain cs) (wktLine cs).toList :=
  .tuple fun c _ => laidBefore_coordinate c

theorem laidBefore_rings (rings : List (List Coordinate)) :
    LaidBefore (ringTokensAs .plain rings) (wktRings rings).toList :=
  .tuple fun cs _ => laidBefore_line cs

theorem laidBefore_inParens (c : Coordinate) :
    LaidBefore (tupleTokens [c.tokensAs .plain]) (wktList [c.wkt]).toList := by
  have hone : ∀ c' ∈ [c], LaidBefore (c'.tokensAs .plain) c'.wkt.toList :=
    fun c' _ => laidBefore_coordinate c'
  exact .tuple hone

theorem wktEach_eq_map (gs : List Geometry) : Geometry.wktEach gs = gs.map Geometry.wkt := by
  induction gs with
  | nil => rfl
  | cons g gs ih => rw [Geometry.wktEach, ih, List.map_cons]

/-- The well-known text of a geometry has the tokens of the geometry. -/
theorem laidBefore_wkt {g : Geometry} (hg : g.Writable) :
    LaidBefore (g.tokensAs .plain) g.wkt.toList := by
  induction hg with
  | point _ => exact (laidBefore_inParens _).keyword "POINT"
  | lineString _ _ => exact (laidBefore_line _).keyword "LINESTRING"
  | polygon _ _ => exact (laidBefore_rings _).keyword "POLYGON"
  | @multiPoint cs _ _ =>
    have hpoints : LaidBefore (tupleTokens (cs.map fun c => tupleTokens [c.tokensAs .plain]))
        (wktList (cs.map fun c => wktList [c.wkt])).toList :=
      .tuple fun c _ => laidBefore_inParens c
    exact hpoints.keyword "MULTIPOINT"
  | multiLineString _ _ => exact (laidBefore_rings _).keyword "MULTILINESTRING"
  | @multiPolygon polygons _ _ =>
    have hpolygons : LaidBefore (tupleTokens (polygons.map (ringTokensAs .plain)))
        (wktList (polygons.map wktRings)).toList :=
      .tuple fun rings _ => laidBefore_rings rings
    exact hpolygons.keyword "MULTIPOLYGON"
  | @collection gs _ _ ih =>
    have hmembers := LaidBefore.tuple ih
    rw [← Geometry.tokensAsEach_eq_map, ← wktEach_eq_map] at hmembers
    exact hmembers.keyword "GEOMETRYCOLLECTION"

theorem collectionWkt_eq (gs : List Geometry) :
    Geometry.collectionWkt gs = (Geometry.collection gs).wkt := by
  show _ = "GEOMETRYCOLLECTION" ++ wktList (Geometry.wktEach gs)
  rw [wktEach_eq_map]
  rfl

theorem exists_ofText_wkt {g : Geometry} (hg : g.Writable) :
    ∃ s, Expr.ofText g.wkt = .ok (.ofGeometry s (g.mapOrdinates Binary64.unsignZero)) := by
  have hlaid : Laid (g.tokensAs .plain ++ []) (Cursor.ofText g.wkt.toList).rest := by
    have h := laidBefore_wkt hg [] [] (.nil [] rfl) (by rintro _ ⟨⟩)
    rwa [List.append_nil g.wkt.toList] at h
  have hfront : ∃ t ts, g.tokensAs .plain = t :: ts ∧ Solid t ∧
      ∀ rest, [Rule.kwNot, .minus].all (cql2.misses 3 (t ++ rest)) = true := by
    cases g <;> exact ⟨_, _, rfl, ⟨_, _, rfl, rfl⟩, fun _ => rfl⟩
  obtain ⟨d, _, hd, hderives, t, rfl, s, us, rfl, hread⟩ :=
    takes_geometryAs .plain hg (fun _ => True) _ [] hlaid trivial
  obtain ⟨t, ts, htokens, hsolid, hmiss⟩ := hfront
  rw [htokens] at hlaid
  obtain ⟨rest, hrest, -, -⟩ := hlaid.exists_front hsolid
  have hnone : ∀ q ∈ [Rule.kwNot, .minus],
      Derives cql2 (.phrase (.rule q)) (Cursor.ofText g.wkt.toList).skipBlanks none := by
    intro q hq
    apply RuleSet.derives_of_misses (Cursor.skipBlanks_skipBlanks _) (n := 3)
    rw [hrest]
    exact List.all_eq_true.1 (hmiss rest) q hq
  have hyields : Yields .geometryLiteral (Cursor.ofText g.wkt.toList).skipBlanks d
      (.ofGeometry s (g.mapOrdinates Binary64.unsignZero)) := by
    refine ⟨_, hderives, ?_⟩
    show (do return Expr.ofGeometry s (← OfText.geometry (.node .geometryLiteral s us))) = _
    rw [hread]
    rfl
  obtain ⟨hnot, hminus⟩ := List.forall_mem_cons.1 hnone
  exact ⟨s, (hyields.primary 0 rfl hminus).ofText hnot hd.rest_skipBlanks_nil⟩

/-- The well-known text of a geometry whose lists have members and whose ordinates are numbers is
read as the geometry, or as the collection, with ordinates that are equal as numbers. -/
theorem Expr.ofText_wkt :
    (∀ g : Geometry, g.Writable →
      ∃ s, Expr.ofText g.wkt = .ok (.ofGeometry s (g.mapOrdinates Binary64.unsignZero))) ∧
    (∀ x : Binary64, x.unsignZero.value? = x.value?) ∧
    ∀ gs : List Geometry, Geometry.collectionWkt gs = (Geometry.collection gs).wkt :=
  ⟨fun _ hg => exists_ofText_wkt hg, Binary64.value?_unsignZero, collectionWkt_eq⟩

/-- With a zero that has a sign, and with two and three ordinates. -/
theorem Expr.ofText_wkt_signedZero :
    let g : Geometry := .collection [.point ⟨.zero true, .ofInt 2, none⟩,
      .multiPoint [⟨.ofInt 2, .ofDecimal true ⟨25, -1⟩, some (.ofInt 2)⟩]]
    g.wkt = "GEOMETRYCOLLECTION(POINT(-0 2),MULTIPOINT((2 -2.5 2)))" ∧ g.Writable ∧
      ∃ s, Expr.ofText g.wkt = .ok (.geometries s [.point ⟨.zero false, .ofInt 2, none⟩,
        .multiPoint [⟨.ofInt 2, .ofDecimal true ⟨25, -1⟩, some (.ofInt 2)⟩]]) := by
  intro g
  have htext : g.wkt = "GEOMETRYCOLLECTION(POINT(-0 2),MULTIPOINT((2 -2.5 2)))" := by
    decide +kernel
  have hnumbers : ∀ x ∈ [Binary64.ofInt 2, .ofDecimal true ⟨25, -1⟩],
      x.isFinite = true ∧ x.unsignZero = x := by decide +kernel
  obtain ⟨⟨htwo, htwo'⟩, ⟨hplaces, hplaces'⟩, -⟩ := by
    simpa only [List.forall_mem_cons] using hnumbers
  have hpoint : (⟨.zero true, .ofInt 2, none⟩ : Coordinate).Finite := by
    simp only [Coordinate.Finite]
    exact ⟨rfl, htwo, fun z h => absurd h (Option.not_mem_none z)⟩
  have hmember : (⟨.ofInt 2, .ofDecimal true ⟨25, -1⟩, some (.ofInt 2)⟩ : Coordinate).Finite := by
    simp only [Coordinate.Finite, Option.mem_some_iff, forall_eq']
    exact ⟨htwo, hplaces, htwo⟩
  have hg : g.Writable := by
    refine .collection (List.cons_ne_nil _ _) ?_
    simp only [List.forall_mem_cons]
    exact ⟨.point hpoint, .multiPoint (List.cons_ne_nil _ _) (List.forall_mem_singleton.2 hmember),
      fun _ h => absurd h List.not_mem_nil⟩
  obtain ⟨s, hread⟩ := Expr.ofText_wkt.1 g hg
  have hzero : (Binary64.zero true).unsignZero = .zero false := rfl
  refine ⟨htext, hg, s, hread.trans ?_⟩
  simp only [g, Geometry.mapOrdinates, Geometry.mapOrdinatesEach, Coordinate.map, List.map_cons,
    List.map_nil, Option.map_none, Option.map_some, hzero, htwo', hplaces', Expr.ofGeometry]

end FeatureFilter
