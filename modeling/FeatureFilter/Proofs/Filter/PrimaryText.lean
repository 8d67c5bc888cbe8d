import FeatureFilter.Proofs.Filter.Printing
import FeatureFilter.Proofs.Filter.Quoting
import FeatureFilter.Proofs.Filter.Wrapping
import FeatureFilter.Proofs.Time.Written

namespace FeatureFilter

open Grammar

/-- A tree that stands for a filter, places apart. -/
def Means (e : Expr) (t : ParseTree Rule) : Prop :=
  ∃ e', OfText.expr t = .ok e' ∧ e'.unplaced = e.unplaced

/-- Filters whose tokens are taken for an operand, and not for a negation. -/
structure Primary (e : Expr) : Prop where
  takes : ∀ follow, Takes (.rule .unary) e.tokens follow (Sole (Means e))
  begins : ∀ ks, Refuses (.rule .kwNot) (e.tokens ++ ks)

theorem Primary.of_rule (n : Nat) (hn : primaryRules[n]? = some r)
    (hmiss : ∀ q ∈ .kwNot :: .minus :: primaryRules.take n, ∀ ks,
      Refuses (.rule q) (e.tokens ++ ks))
    (h : ∀ follow, Takes (.rule r) e.tokens follow (Sole (Means e))) : Primary e := by
  obtain ⟨hnot, hmiss⟩ := List.forall_mem_cons.1 hmiss
  obtain ⟨hminus, hmiss⟩ := List.forall_mem_cons.1 hmiss
  refine ⟨fun follow => ?_, hnot⟩
  have hany := Takes.anyOf n hn (fun q hq ks _ => hmiss q hq ks) (h follow)
  have hright : Takes (.anyOf [.seq (.rule .minus) (.rule .unary), .primary]) e.tokens follow
      (Sole (Means e)) :=
    .choiceRight (fun ks _ c hl => .seqLeft (hminus ks c hl)) hany
  apply Takes.rule rfl hright
  rintro s us ⟨t, rfl, e', he, hplace⟩
  exact ⟨e', OfText.expr_unsigned he s, hplace⟩

/-- The first token tells the rule. -/
theorem Primary.of_front (n : Nat) (hn : primaryRules[n]? = some r) (hts : e.tokens = t :: ts)
    (ht : Solid t)
    (hmiss : ∀ rest,
      (.kwNot :: .minus :: primaryRules.take n).all (cql2.misses 3 (t ++ rest)) = true)
    (h : ∀ follow, Takes (.rule r) e.tokens follow (Sole (Means e))) : Primary e := by
  refine .of_rule n hn (fun q hq ks => ?_) h
  rw [hts, List.cons_append]
  exact .of_misses ht (fun rest => List.all_eq_true.1 (hmiss rest) q hq) _

theorem isNameChar_of_mem_keywords : ∀ w ∈ keywords, w.toList.all isNameChar = true := by
  decide +kernel

/-- Where no keyword stands, the rules that start with keywords fail. -/
theorem derives_of_noKeyword {c : Cursor}
    (h : ∀ w ∈ keywords, (Pattern.keyword w).scan c.rest = none) :
    ∀ q ∈ .kwNot :: primaryRules.take 7, Derives cql2 (.phrase (.rule q)) c none := by
  have hword {kw : Rule} {w : String} (hkw : cql2.define kw = .token (.keyword w))
      (hw : w ∈ keywords) : Derives cql2 (.phrase (.rule kw)) c none := .noToken hkw (h w hw)
  have hfirst {r kw : Rule} {w : String} {y : Phrase Rule}
      (hr : cql2.define r = .phrase (.seq (.rule kw) y))
      (hkw : cql2.define kw = .token (.keyword w)) (hw : w ∈ keywords) :
      Derives cql2 (.phrase (.rule r)) c none := .noNode hr (.seqLeft (hword hkw hw))
  have hgeometry : ∀ q ∈ geometryRules, Derives cql2 (.phrase (.rule q)) c none := by
    simp only [geometryRules, List.forall_mem_cons]
    exact ⟨hfirst rfl rfl (by decide), hfirst rfl rfl (by decide), hfirst rfl rfl (by decide),
      hfirst rfl rfl (by decide), hfirst rfl rfl (by decide), hfirst rfl rfl (by decide),
      hfirst rfl rfl (by decide), nofun⟩
  have hliteral : Derives cql2 (.phrase (.rule .geometryLiteral)) c none :=
    .noNode rfl (derives_anyOf_none (List.cons_ne_nil _ _) hgeometry)
  have hboolean : Derives cql2 (.phrase (.rule .booleanLiteral)) c none :=
    .noNode rfl (.choiceRight (hword rfl (by decide)) (hword rfl (by decide)))
  simp only [primaryRules, List.take, List.forall_mem_cons]
  exact ⟨hword rfl (by decide), hliteral, hfirst rfl rfl (by decide), hfirst rfl rfl (by decide),
    hfirst rfl rfl (by decide), hfirst rfl rfl (by decide), hboolean,
    .noNode rfl (hword rfl (by decide)), nofun⟩

theorem takes_stringLiteral (text : List Char) (follow : List (List Char) → Prop) :
    Takes (.rule .stringLiteral) [Text.quote '\'' text] follow
      (Sole fun t => ∃ s, t = .token .stringLiteral s (Text.quote '\'' text)) := by
  refine .token rfl ⟨_, _, rfl, rfl⟩ (fun rest ha => Pattern.scan_string text ?_) follow
  intro hrest
  have hlast : (Text.quote '\'' text).getLast? = some '\'' := List.getLast?_concat
  cases ha '\'' hlast '\'' hrest

theorem stringValue_quote (text : List Char) :
    OfText.stringValue (Text.quote '\'' text) = String.ofList text := by
  rw [OfText.stringValue, Text.unquote_quote]

theorem takes_string (value : String) (s : Text.Span) (follow : List (List Char) → Prop) :
    Takes (.rule .stringLiteral) [Text.quote '\'' value.toList] follow
      (Sole (Means (.literal s (.string value)))) := by
  apply (takes_stringLiteral value.toList follow).sole
  rintro _ ⟨s', rfl⟩
  refine ⟨.literal s' (.string value), ?_, rfl⟩
  rw [OfText.expr, OfText.tokenExpr, stringValue_quote, String.ofList_toList]

theorem takes_quoted (word : String) (hkw : cql2.define kw = .token (.keyword w))
    (hword : Spelling w word.toList)
    (hr : cql2.define r = .phrase (.seq (.rule kw) (.parens (.rule .stringLiteral))))
    (text : List Char) (follow : List (List Char) → Prop) :
    Takes (.rule r) (quotedTokens word text) follow
      (Sole fun t => ∃ s us, t = .node r s us ∧ OfText.soleString s us = .ok (.ofList text)) := by
  have hinside := (takes_stringLiteral text (Stops [[')']])).parens follow
  have hall := (Takes.keyword hkw hword fun _ => True).seq hinside fun _ _ => trivial
  apply Takes.rule hr hall
  rintro s us ⟨_, _, rfl, ⟨_, rfl, s', rfl⟩, _, rfl, s'', rfl⟩
  refine ⟨s, _, rfl, ?_⟩
  exact congrArg Except.ok (stringValue_quote text)

theorem expr_timestampLiteral (h : OfText.soleString s us = .ok text)
    (ht : Time.Instant.ofString? text = some t) :
    OfText.expr (.node .timestampLiteral s us) = .ok (.literal s (.timestamp t)) := by
  simp only [OfText.expr, h]
  show OfText.timestamp s text = _
  simp only [OfText.timestamp, ht]

theorem takes_timestamp {t : Time.Instant} (h : 0 ≤ t.date.year ∧ t.date.year ≤ 9999)
    (s : Text.Span) (follow : List (List Char) → Prop) :
    Takes (.rule .timestampLiteral) (quotedTokens "TIMESTAMP" t.write) follow
      (Sole (Means (.literal s (.timestamp t)))) := by
  apply (takes_quoted (r := .timestampLiteral) "TIMESTAMP" rfl ⟨nofun, rfl, rfl⟩ rfl t.write
    follow).sole
  rintro _ ⟨s', us, rfl, htext⟩
  refine ⟨.literal s' (.timestamp t), ?_, rfl⟩
  apply expr_timestampLiteral htext
  rw [Time.Instant.ofString?, String.toList_ofList, t.read?_write h]

theorem expr_dateLiteral (h : OfText.soleString s us = .ok text)
    (hd : Time.Date.ofString? text = some d) :
    OfText.expr (.node .dateLiteral s us) = .ok (.literal s (.date d)) := by
  simp only [OfText.expr, h]
  show OfText.date s text = _
  simp only [OfText.date, hd]

theorem takes_date (d : Time.Date) (s : Text.Span) (follow : List (List Char) → Prop) :
    Takes (.rule .dateLiteral) (quotedTokens "DATE" d.write) follow
      (Sole (Means (.literal s (.date d)))) := by
  apply (takes_quoted (r := .dateLiteral) "DATE" rfl ⟨nofun, rfl, rfl⟩ rfl d.write follow).sole
  rintro _ ⟨s', us, rfl, htext⟩
  refine ⟨.literal s' (.date d), ?_, rfl⟩
  apply expr_dateLiteral htext
  rw [Time.Date.ofString?, String.toList_ofList, d.read?_write]

def decimalDigits : List Char := ['0', '1', '2', '3', '4', '5', '6', '7', '8', '9']

theorem mem_decimalDigits (h : d.isDigit = true) : d ∈ decimalDigits := by
  have hdigits : ∀ n < 10, Char.ofNat (48 + n) ∈ decimalDigits := by decide
  obtain ⟨hle, hge⟩ := Bool.and_eq_true_iff.1 h
  have hle : 48 ≤ d.toNat := of_decide_eq_true hle
  have hge : d.toNat ≤ 57 := of_decide_eq_true hge
  obtain ⟨n, hn⟩ := Nat.exists_eq_add_of_le hle
  rw [← Char.ofNat_toNat d, hn]
  exact hdigits n (by omega)

theorem front_digit : decimalDigits.all (fun d => !isNameStart d && '-' != d &&
    keywords.all (·.toList.head? != some d.toLower)) = true := by
  decide +kernel

/-- What starts with a digit is no keyword, no sign and no name. -/
theorem derives_of_isDigit {c : Cursor} (hc : c.rest = d :: cs) (hd : d.isDigit = true) :
    ∀ q ∈ .kwNot :: .minus :: primaryRules.take 8, Derives cql2 (.phrase (.rule q)) c none := by
  have hfront := List.all_eq_true.1 front_digit d (mem_decimalDigits hd)
  simp only [Bool.and_eq_true, Bool.not_eq_true', bne_iff_ne, List.all_eq_true] at hfront
  obtain ⟨⟨hstart, hminus⟩, hwords⟩ := hfront
  have hkeyword : ∀ w ∈ keywords, (Pattern.keyword w).scan c.rest = none := by
    intro w hw
    apply Pattern.scan_keyword_of_ne (isNameChar_of_mem_keywords w hw)
    intro hlower
    rw [hc, leadingWord, List.takeWhile_cons_of_pos (Pattern.isNameChar_of_isDigit hd),
      List.map_cons] at hlower
    apply hwords w hw
    rw [← hlower, List.head?_cons]
  have hsign : Derives cql2 (.phrase (.rule .minus)) c none := by
    refine .noToken rfl ?_
    rw [hc]
    exact ((Pattern.Single.text '-').cons d cs).trans (by rw [beq_false_of_ne hminus]; rfl)
  have hname : Derives cql2 (.phrase (.rule .functionCall)) c none := by
    refine .noNode rfl (.seqLeft (.noToken rfl ?_))
    rw [hc]
    exact Pattern.scan_identifier_of_start hstart cs
  obtain ⟨hnot, hrules⟩ := List.forall_mem_cons.1 (derives_of_noKeyword hkeyword)
  refine List.forall_mem_cons.2 ⟨hnot, List.forall_mem_cons.2 ⟨hsign, ?_⟩⟩
  exact List.forall_mem_append.2 ⟨hrules, List.forall_mem_singleton.2 hname⟩

theorem primary_numeral (s : Text.Span) {value : Literal} (htokens : value.tokens = [t])
    (ht : Numeral t) (hvalue : Literal.ofNumeral? t = some value) : Primary (.literal s value) := by
  have hsolid := (SignedNumeral.plain ht).solid
  refine .of_rule 8 rfl (fun q hq ks c hl => ?_) fun follow => ?_
  · rw [Expr.tokens, htokens] at hl
    obtain ⟨rest, hrest, -, -⟩ := hl.exists_front hsolid
    obtain ⟨d, ds, rfl, hd⟩ := ht.exists_digit
    exact derives_of_isDigit hrest hd q hq
  · rw [Expr.tokens, htokens]
    have hscan (rest : List Char) (ha : Apart t rest) :=
      Pattern.scan_number ht ((SignedNumeral.plain ht).endsWord ha)
    apply (Takes.token (r := .numberLiteral) rfl hsolid hscan follow).sole
    rintro _ ⟨s', rfl⟩
    exact ⟨.literal s' value, OfText.expr_numeral (.inl rfl) hvalue s', rfl⟩

theorem primary_null (s : Text.Span) : Primary (.literal s .null) := by
  refine .of_front (t := "NULL".toList) 6 rfl rfl ⟨_, _, rfl, rfl⟩ (fun _ => rfl) fun follow => ?_
  have hword := Takes.keyword (r := .kwNull) (t := "NULL".toList) rfl ⟨nofun, rfl, rfl⟩ follow
  apply Takes.rule rfl hword
  intro s' us _
  exact ⟨.literal s' .null, rfl, rfl⟩

theorem primary_boolean (s : Text.Span) (b : Bool) : Primary (.literal s (.boolean b)) := by
  cases b with
  | true =>
    refine .of_front (t := "TRUE".toList) 5 rfl rfl ⟨_, _, rfl, rfl⟩ (fun _ => rfl) fun follow => ?_
    have hword := Takes.keyword (r := .kwTrue) (t := "TRUE".toList) rfl ⟨nofun, rfl, rfl⟩ follow
    have hchoice := hword.choiceLeft (.rule .kwFalse)
    apply Takes.rule rfl hchoice
    rintro s' us ⟨_, rfl, s'', rfl⟩
    exact ⟨.literal s' (.boolean true), rfl, rfl⟩
  | false =>
    refine .of_front (t := "FALSE".toList) 5 rfl rfl ⟨_, _, rfl, rfl⟩ (fun _ => rfl) ?_
    intro follow
    have hword := Takes.keyword (r := .kwFalse) (t := "FALSE".toList) rfl ⟨nofun, rfl, rfl⟩ follow
    have hchoice := Takes.choiceRight (x := .rule .kwTrue)
      (fun ks _ => .of_misses (n := 1) ⟨_, _, rfl, rfl⟩ (fun _ => rfl) ks) hword
    apply Takes.rule rfl hchoice
    rintro s' us ⟨_, rfl, s'', rfl⟩
    exact ⟨.literal s' (.boolean false), rfl, rfl⟩

theorem primary_literal (h : value.Printable) (s : Text.Span) : Primary (.literal s value) := by
  cases h with
  | null => exact primary_null s
  | boolean => exact primary_boolean s _
  | integer hn =>
    exact primary_numeral s rfl (Literal.numeral_toString hn) (Literal.ofNumeral?_toString _)
  | number hx hsign =>
    exact primary_numeral s rfl (Literal.numeral_pointed hx hsign) (Literal.ofNumeral?_pointed hx)
  | @string value =>
    exact .of_front (t := Text.quote '\'' value.toList) 9 rfl rfl ⟨_, _, rfl, rfl⟩ (fun _ => rfl)
      (takes_string value s)
  | timestamp ht =>
    exact .of_front (t := "TIMESTAMP".toList) 3 rfl rfl ⟨_, _, rfl, rfl⟩ (fun _ => rfl)
      (takes_timestamp ht s)
  | date =>
    exact .of_front (t := "DATE".toList) 4 rfl rfl ⟨_, _, rfl, rfl⟩ (fun _ => rfl) (takes_date _ s)

theorem takes_property (h : Expr.PrintableProperty name) (s : Text.Span)
    (follow : List (List Char) → Prop) :
    Takes (.rule .property) ['"' :: name.toList ++ ['"']] follow
      (Sole (Means (.property s name))) := by
  obtain ⟨hne, hquote⟩ := h
  have hne : name.toList ≠ [] := fun hnil => hne (String.toList_eq_nil_iff.1 hnil)
  have hsolid : Solid ('"' :: name.toList ++ ['"']) := ⟨_, _, rfl, rfl⟩
  have htoken := Takes.token (r := .quotedIdentifier) rfl hsolid
    (fun rest _ => Pattern.scan_quotedIdentifier hne hquote rest) follow
  apply Takes.rule rfl (htoken.choiceLeft (.rule .identifier))
  rintro s' us ⟨_, rfl, s'', rfl⟩
  refine ⟨.property s' name, ?_, rfl⟩
  rw [OfText.expr, OfText.propertyExpr, Text.between_quotes, String.ofList_toList]

theorem refuses_parenthesized (ht : Solid t)
    (h : ∀ rest, (Pattern.text ['(']).scan (t ++ rest) = none)
    (ks : List (List Char)) : Refuses (.rule .parenthesized) (t :: ks) := by
  intro c hl
  obtain ⟨rest, hrest, -, -⟩ := hl.exists_front ht
  refine .noNode rfl (.seqLeft (.noMark ?_))
  rw [hrest]
  exact h rest

theorem primary_property (h : Expr.PrintableProperty name) (s : Text.Span) :
    Primary (.property s name) := by
  have hsolid : Solid ('"' :: name.toList ++ ['"']) := ⟨_, _, rfl, rfl⟩
  refine .of_rule 11 rfl (fun q hq ks => ?_) (takes_property h s)
  have hq : q ∈ (.kwNot :: .minus :: primaryRules.take 10) ++ [.parenthesized] := hq
  rcases List.mem_append.1 hq with hq | hq
  · have hmiss (rest : List Char) : (.kwNot :: .minus :: primaryRules.take 10).all
        (cql2.misses 3 ('"' :: name.toList ++ ['"'] ++ rest)) = true := rfl
    exact .of_misses hsolid (fun rest => List.all_eq_true.1 (hmiss rest) q hq) ks
  · rw [List.mem_singleton.1 hq]
    exact refuses_parenthesized hsolid (fun _ => rfl) ks

theorem takes_intervalBound (n : Nat) (hn : boundRules[n]? = some r) (ht : Solid t)
    (hmiss : ∀ rest, (boundRules.take n).all (cql2.misses 2 (t ++ rest)) = true)
    (h : Takes (.rule r) (t :: ts) follow P) : Takes .intervalBound (t :: ts) follow P :=
  .anyOf n hn (fun q hq _ _ => .of_misses ht
    (fun rest => List.all_eq_true.1 (hmiss rest) q hq) _) h

theorem takes_bound (h : e.PrintableBound) (follow : List (List Char) → Prop) :
    Takes .intervalBound e.tokens follow (Sole (Means e)) := by
  cases h with
  | timestamp ht =>
    exact takes_intervalBound 0 rfl ⟨_, _, rfl, rfl⟩ (fun _ => rfl) (takes_timestamp ht _ follow)
  | date =>
    exact takes_intervalBound 1 rfl ⟨_, _, rfl, rfl⟩ (fun _ => rfl) (takes_date _ _ follow)
  | string =>
    exact takes_intervalBound 2 rfl ⟨_, _, rfl, rfl⟩ (fun _ => rfl) (takes_string _ _ follow)
  | property hname =>
    exact takes_intervalBound 3 rfl ⟨_, _, rfl, rfl⟩ (fun _ => rfl) (takes_property hname _ follow)

theorem primary_interval (hstart : start.PrintableBound) (hstop : stop.PrintableBound)
    (s : Text.Span) : Primary (.interval s start stop) := by
  refine .of_front (t := "INTERVAL".toList) 2 rfl rfl ⟨_, _, rfl, rfl⟩ (fun _ => rfl)
    fun follow => ?_
  have hcomma := Takes.mark [','] ⟨_, _, rfl, rfl⟩ fun _ => True
  have hbounds := (takes_bound hstart fun _ => True).seq
    (hcomma.seq (takes_bound hstop (Stops [[')']])) fun _ _ => trivial) fun _ _ => trivial
  have hword := Takes.keyword (r := .kwInterval) (t := "INTERVAL".toList) rfl ⟨nofun, rfl, rfl⟩
    fun _ => True
  have hall := hword.seq (hbounds.parens follow) fun _ _ => trivial
  have htokens : (Expr.interval s start stop).tokens = ["INTERVAL".toList] ++
      ['('] :: (start.tokens ++ ([[',']] ++ stop.tokens) ++ [[')']]) := by
    rw [Expr.tokens, tupleTokens, commaTokens, behindCommas, behindCommas, List.append_nil]
    rfl
  rw [htokens]
  apply Takes.rule rfl hall
  rintro s' us ⟨_, _, rfl, ⟨_, rfl, s'', rfl⟩, _, _, rfl, ⟨t, rfl, e, he, hplace⟩, _, _, rfl, rfl,
    t', rfl, e', he', hplace'⟩
  refine ⟨.interval s' e e', ?_, ?_⟩
  · show (do return Expr.interval s' (← OfText.expr t) (← OfText.expr t')) = _
    rw [he, he']
    rfl
  · rw [Expr.unplaced, Expr.unplaced, hplace, hplace']

theorem takes_boxItem (h : value.IsOrdinate) (s : Text.Span) (follow : List (List Char) → Prop) :
    Takes (.rule .signedNumber) (Expr.literal s value).tokens follow
      (Sole (Means (.literal s value))) := by
  have htoken {t : List Char} (ht : SignedNumeral t) (hvalue : Literal.ofNumeral? t = some value) :
      Takes (.rule .signedNumber) [t] follow (Sole (Means (.literal s value))) := by
    apply (takes_signedNumber ht follow).sole
    rintro _ ⟨s', rfl⟩
    exact ⟨.literal s' value, OfText.expr_numeral (.inr rfl) hvalue s', rfl⟩
  cases h with
  | integer => exact htoken (Literal.signedNumeral_toString _) (Literal.ofNumeral?_toString _)
  | number hx => exact htoken (Literal.signedNumeral_pointed hx) (Literal.ofNumeral?_pointed hx)

theorem each_of_forall₂ (h : List.Forall₂ Means es ts) :
    ∃ es', OfText.each ts = .ok es' ∧ Expr.unplacedEach es' = Expr.unplacedEach es := by
  induction h with
  | nil => exact ⟨[], rfl, rfl⟩
  | cons he _ ih =>
    obtain ⟨e', he, hplace⟩ := he
    obtain ⟨es', hes, hplaces⟩ := ih
    refine ⟨e' :: es', ?_, ?_⟩
    · rw [OfText.each, he, hes]
      rfl
    · rw [Expr.unplacedEach, Expr.unplacedEach, hplace, hplaces]

theorem primary_box (hne : items ≠ [])
    (h : ∀ e ∈ items, ∃ s value, e = .literal s value ∧ value.IsOrdinate) (s : Text.Span) :
    Primary (.box s items) := by
  refine .of_front (t := "BBOX".toList) 1 rfl rfl ⟨_, _, rfl, rfl⟩ (fun _ => rfl) fun follow => ?_
  have hitem : ∀ e ∈ items, Takes (.rule .signedNumber) e.tokens (Stops closers)
      (Sole (Means e)) := by
    intro e he
    obtain ⟨s, value, rfl, hvalue⟩ := h e he
    exact takes_boxItem hvalue s _
  have hword := Takes.keyword (r := .kwBbox) (t := "BBOX".toList) rfl ⟨nofun, rfl, rfl⟩
    fun _ => True
  have hall := hword.seq (takes_tuple hne hitem follow) fun _ _ => trivial
  rw [Expr.tokens, Expr.tokensEach_eq_map]
  apply Takes.rule rfl hall
  rintro s' us ⟨_, v, rfl, ⟨_, rfl, s'', rfl⟩, hv⟩
  obtain ⟨es', hes, hplaces⟩ := each_of_forall₂ hv
  refine ⟨.box s' es', ?_, ?_⟩
  · show (do return Expr.box s' (← OfText.each v)) = _
    rw [hes]
    rfl
  · rw [Expr.unplaced, Expr.unplaced, hplaces]

theorem primary_geometry (h : g.Writable) (s : Text.Span) : Primary (.ofGeometry s g) := by
  have hfront : ∃ t ts, g.tokens = t :: ts ∧ Solid t ∧
      ∀ rest, [Rule.kwNot, .minus].all (cql2.misses 3 (t ++ rest)) = true := by
    cases g <;> exact ⟨_, _, rfl, ⟨_, _, rfl, rfl⟩, fun _ => rfl⟩
  obtain ⟨t, ts, htokens, hsolid, hmiss⟩ := hfront
  refine .of_front 0 rfl ((Expr.tokens_ofGeometry s g).trans htokens) hsolid hmiss fun follow => ?_
  rw [Expr.tokens_ofGeometry]
  apply (takes_geometry h follow).sole
  rintro _ ⟨s', us, rfl, hg⟩
  refine ⟨.ofGeometry s' g, ?_, ?_⟩
  · show (do return Expr.ofGeometry s' (← OfText.geometry (.node .geometryLiteral s' us))) = _
    rw [hg]
    rfl
  · rw [Expr.unplaced_ofGeometry, Expr.unplaced_ofGeometry]

theorem primary_atom (h : e.PrintableAtom) : Primary e := by
  cases h with
  | literal hvalue => exact primary_literal hvalue _
  | property hname => exact primary_property hname _
  | box hne hitems => exact primary_box hne hitems _
  | interval hstart hstop => exact primary_interval hstart hstop _
  | geometry hg => exact primary_geometry hg _

theorem derives_predicate_none {c : Cursor}
    (h : ∀ q ∈ .minus :: primaryRules, Derives cql2 (.phrase (.rule q)) c none) :
    Derives cql2 (.phrase (.rule .predicate)) c none := by
  obtain ⟨hminus, hprimary⟩ := List.forall_mem_cons.1 h
  have hunary : Derives cql2 (.phrase (.rule .unary)) c none :=
    .noNode rfl (.choiceRight (.seqLeft hminus)
      (derives_anyOf_none (List.cons_ne_nil _ _) hprimary))
  exact .noNode rfl (.seqLeft (.noNode rfl (.seqLeft (.noNode rfl (.seqLeft hunary)))))

theorem derives_negation_none {c : Cursor}
    (h : ∀ q ∈ .kwNot :: .minus :: primaryRules, Derives cql2 (.phrase (.rule q)) c none) :
    Derives cql2 (.phrase (.rule .negation)) c none := by
  obtain ⟨hnot, h⟩ := List.forall_mem_cons.1 h
  exact .noNode rfl (.choiceRight (.seqLeft hnot) (derives_predicate_none h))

theorem derives_expression_of_negation {c : Cursor}
    (h : Derives cql2 (.phrase (.rule .negation)) c none) :
    Derives cql2 (.phrase (.rule .expression)) c none :=
  .noNode rfl (.noNode rfl (.seqLeft (.noNode rfl (.seqLeft h))))

theorem derives_expression_none {c : Cursor}
    (h : ∀ q ∈ .kwNot :: .minus :: primaryRules, Derives cql2 (.phrase (.rule q)) c none) :
    Derives cql2 (.phrase (.rule .expression)) c none :=
  derives_expression_of_negation (derives_negation_none h)

theorem refuses_operand (hks : Stops [[')']] ks) :
    ∀ q ∈ .kwNot :: .minus :: primaryRules, Refuses (.rule q) ks := by
  intro q hq c hl
  have hrest : c.skipBlanks.rest = [] ∨ ∃ rest, c.skipBlanks.rest = ')' :: rest := by
    cases ks with
    | nil => exact .inl hl.rest_skipBlanks_nil
    | cons t ks =>
      cases List.mem_singleton.1 (hks t rfl)
      obtain ⟨rest, hrest, -, -⟩ := hl.exists_front ⟨_, _, rfl, rfl⟩
      exact .inr ⟨rest, hrest⟩
  have hopen : (Pattern.text ['(']).scan c.skipBlanks.rest = none := by
    rcases hrest with hrest | ⟨rest, hrest⟩ <;> rw [hrest] <;> rfl
  have hmiss : (.kwNot :: .minus :: primaryRules).all (fun q =>
      q == .parenthesized || cql2.misses 3 c.skipBlanks.rest q) = true := by
    rcases hrest with hrest | ⟨rest, hrest⟩ <;> rw [hrest] <;> rfl
  rcases Bool.or_eq_true_iff.1 (List.all_eq_true.1 hmiss q hq) with hparens | hmiss
  · rw [eq_of_beq hparens]
    exact .noNode rfl (.seqLeft (.noMark hopen))
  · exact RuleSet.derives_of_misses c.skipBlanks_skipBlanks hmiss

theorem refuses_expression (hks : Stops [[')']] ks) : Refuses (.rule .expression) ks :=
  fun c hl => derives_expression_none fun q hq => refuses_operand hks q hq c hl

theorem takes_arguments
    (h : ∀ e ∈ es, Takes (.rule .expression) e.tokens (Stops closers) (Sole (Means e)))
    (follow : List (List Char) → Prop) :
    Takes .arguments (tupleTokens (es.map Expr.tokens)) follow (List.Forall₂ Means es) := by
  cases es with
  | nil =>
    have hsolid : ∀ t ∈ [[')']], Solid t := List.forall_mem_singleton.2 ⟨_, _, rfl, rfl⟩
    have habsent : Takes (.optional (.commas (.rule .expression))) [] (Stops [[')']]) (· = []) :=
      .absent (fun ks hks t ht => hsolid t (hks t ht))
        fun ks hks c hl => .seqLeft (refuses_expression hks c hl)
    apply (habsent.parens follow).mono
    rintro trees rfl
    exact .nil
  | cons e es => exact (takes_commas (List.cons_ne_nil e es) h).optional.parens follow

theorem primary_parenthesized (htokens : e.tokens = tupleTokens (es.map Expr.tokens))
    (h : ∀ e ∈ es, Takes (.rule .expression) e.tokens (Stops closers) (Sole (Means e)))
    (he : ∀ s ts, List.Forall₂ Means es ts → Means e (.node .parenthesized s ts)) : Primary e := by
  refine .of_front 10 rfl htokens ⟨_, _, rfl, rfl⟩ (fun _ => rfl) fun follow => ?_
  rw [htokens]
  exact .rule rfl (takes_arguments h follow) he

theorem primary_group (h : Takes (.rule .expression) e.tokens (Stops closers) (Sole (Means e)))
    (s : Text.Span) : Primary (.group s e) := by
  refine primary_parenthesized (e := .group s e) rfl (List.forall_mem_singleton.2 h) ?_
  intro s' ts hts
  cases hts with
  | cons he hnil =>
    cases hnil
    obtain ⟨e', he, hplace⟩ := he
    exact ⟨.group s' e', OfText.expr_parenthesized he s', congrArg (Expr.group .zero) hplace⟩

theorem expr_parenthesized_array (h : OfText.each ts = .ok es) (hlen : es.length ≠ 1)
    (s : Text.Span) : OfText.expr (.node .parenthesized s ts) = .ok (.array s es) := by
  simp only [OfText.expr, h]
  cases es with
  | nil => rfl
  | cons e es =>
    cases es with
    | nil => exact absurd rfl hlen
    | cons => rfl

theorem primary_array (hlen : es.length ≠ 1)
    (h : ∀ e ∈ es, Takes (.rule .expression) e.tokens (Stops closers) (Sole (Means e)))
    (s : Text.Span) : Primary (.array s es) := by
  refine primary_parenthesized (by rw [Expr.tokens, Expr.tokensEach_eq_map]) h ?_
  intro s' ts hts
  obtain ⟨es', hes, hplaces⟩ := each_of_forall₂ hts
  have hlength : es'.length ≠ 1 := by
    have heq := congrArg List.length hplaces
    rw [Expr.unplacedEach_eq_map, Expr.unplacedEach_eq_map, List.length_map, List.length_map] at heq
    rwa [heq]
  refine ⟨.array s' es', expr_parenthesized_array hes hlength s', ?_⟩
  rw [Expr.unplaced, Expr.unplaced, hplaces]

namespace FunctionName.Printable

theorem lower (h : Printable f) : f.name.toList.map Char.toLower = f.name.toList := by
  have hname := name_ofString f.name
  rw [h.ofString_name] at hname
  have hlower := congrArg String.toList hname.symm
  rwa [Text.lower, String.toList_ofList] at hlower

theorem isNameChar (h : Printable f) : f.name.toList.all isNameChar = true := by
  obtain ⟨c, cs, hword, hc, hall⟩ := h.isWord
  rw [hword, List.all_cons, Pattern.isNameChar_of_isNameStart hc, hall]
  rfl

theorem ne_nil (h : Printable f) : f.name.toList ≠ [] := by
  obtain ⟨c, cs, hword, -, -⟩ := h.isWord
  rw [hword]
  exact List.cons_ne_nil c cs

theorem solid (h : Printable f) : Solid f.name.toList := by
  obtain ⟨c, cs, hword, hc, -⟩ := h.isWord
  exact ⟨c, cs, hword, isBlank_of_isNameChar (Pattern.isNameChar_of_isNameStart hc)⟩

theorem endsWord (h : Printable f) (ha : Apart f.name.toList rest) : EndsWord rest :=
  ha.endsWord (List.getLast?_eq_some_getLast h.ne_nil)
    (List.all_eq_true.1 h.isNameChar _ (List.getLast_mem h.ne_nil))

theorem scan_keyword (h : Printable f) (ha : Apart f.name.toList rest) :
    ∀ w ∈ keywords, (Pattern.keyword w).scan (f.name.toList ++ rest) = none := by
  intro w hw
  apply Pattern.scan_keyword_of_ne (isNameChar_of_mem_keywords w hw)
  rw [(Pattern.leadingWord_append h.isNameChar (h.endsWord ha)).1, h.lower]
  intro he
  apply h.free
  rw [String.toList_inj.1 he]
  exact hw

theorem scan_identifier (h : Printable f) (ha : Apart f.name.toList rest) :
    Pattern.identifier.scan (f.name.toList ++ rest) = some (f.name.toList, rest) := by
  have hfree := h.scan_keyword ha
  have hrest := h.endsWord ha
  obtain ⟨c, cs, hword, hc, hall⟩ := h.isWord
  rw [hword] at hfree ⊢
  exact Pattern.scan_identifier hc hall hrest fun w hw => hfree w (List.mem_append_left _ hw)

theorem scan_minus (h : Printable f) (rest : List Char) :
    (Pattern.str "-").scan (f.name.toList ++ rest) = none := by
  obtain ⟨c, cs, hword, hc, -⟩ := h.isWord
  rw [hword]
  refine ((Pattern.Single.text '-').cons c (cs ++ rest)).trans (if_neg ?_)
  intro heq
  cases eq_of_beq heq
  cases hc

end FunctionName.Printable

theorem primary_call (hf : f.Printable)
    (h : ∀ e ∈ args, Takes (.rule .expression) e.tokens (Stops closers) (Sole (Means e)))
    (s : Text.Span) : Primary (.call s f args) := by
  refine .of_rule 7 rfl (fun q hq ks c hl => ?_) fun follow => ?_
  · rw [Expr.tokens] at hl
    obtain ⟨rest, hrest, ha, -⟩ := hl.exists_front hf.solid
    have hkeyword := hf.scan_keyword ha
    rw [← hrest] at hkeyword
    obtain ⟨hnot, hrules⟩ := List.forall_mem_cons.1 (derives_of_noKeyword hkeyword)
    have hminus : Derives cql2 (.phrase (.rule .minus)) c.skipBlanks none := by
      refine .noToken rfl ?_
      rw [hrest]
      exact hf.scan_minus rest
    have hall : ∀ q ∈ .kwNot :: .minus :: primaryRules.take 7,
        Derives cql2 (.phrase (.rule q)) c.skipBlanks none :=
      List.forall_mem_cons.2 ⟨hnot, List.forall_mem_cons.2 ⟨hminus, hrules⟩⟩
    exact hall q hq
  · have htoken := Takes.token (r := .functionName) rfl hf.solid (fun _ => hf.scan_identifier)
      fun _ => True
    have hcall := htoken.seq (takes_arguments h follow) fun _ _ => trivial
    rw [Expr.tokens, Expr.tokensEach_eq_map]
    apply Takes.rule rfl hcall
    rintro s' us ⟨_, v, rfl, ⟨_, rfl, s'', rfl⟩, hv⟩
    obtain ⟨es', hes, hplaces⟩ := each_of_forall₂ hv
    refine ⟨.call s' f es', ?_, ?_⟩
    · show (do return Expr.call s' (.ofString (.ofList f.name.toList)) (← OfText.each v)) = _
      rw [hes, String.ofList_toList, hf.ofString_name]
      rfl
    · rw [Expr.unplaced, Expr.unplaced, hplaces]

end FeatureFilter
