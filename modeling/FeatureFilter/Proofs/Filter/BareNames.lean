import FeatureFilter.Proofs.Filter.PrimaryText

namespace FeatureFilter

open Grammar

structure BareName (w : List Char) : Prop where
  isWord : ∃ b bs, w = b :: bs ∧ isNameStart b = true ∧ bs.all isNameChar = true
  free : ∀ r ∈ Pattern.reservedWords, w.map Char.toLower ≠ r.toList

/-- The texts of a name: without quotes if it is such a word, and in quotes. -/
inductive NameText (name : String) : String → Prop
  | bare : BareName name.toList → NameText name name
  | quoted : Expr.PrintableProperty name → NameText name ("\"" ++ name ++ "\"")

/-- Behind the blanks stands neither a parenthesis nor a word. -/
def StandsApart (rest : List Char) : Prop :=
  ∀ b ∈ (rest.dropWhile isBlank).head?, b ≠ '(' ∧ isNameChar b = false

theorem isNameChar_of_isBlank (h : isBlank b = true) : isNameChar b = false := by
  cases hn : isNameChar b with
  | false => rfl
  | true => exact h.symm.trans (isBlank_of_isNameChar hn)

namespace StandsApart

theorem endsWord (h : StandsApart rest) : EndsWord rest := by
  intro b hb
  cases rest with
  | nil => cases hb
  | cons b' bs =>
    cases hb
    cases hblank : isBlank b with
    | true => exact isNameChar_of_isBlank hblank
    | false =>
      apply (h b _).2
      rw [List.dropWhile_cons_of_neg (Bool.eq_false_iff.1 hblank)]
      rfl

theorem scan_open {d : Cursor} (h : StandsApart d.rest) :
    (Pattern.text ['(']).scan d.skipBlanks.rest = none := by
  have hrest : d.skipBlanks.rest = d.rest.dropWhile isBlank := rfl
  rw [hrest]
  cases hd : d.rest.dropWhile isBlank with
  | nil => rfl
  | cons b bs =>
    have hb : b ≠ '(' := (h b (by rw [hd]; rfl)).1
    exact ((Pattern.Single.text '(').cons b bs).trans (if_neg fun he => hb (eq_of_beq he).symm)

theorem scan_keyword {d : Cursor} (h : StandsApart d.rest)
    (hw : w.toList.all isNameChar = true) (hne : w.toList ≠ []) :
    (Pattern.keyword w).scan d.skipBlanks.rest = none := by
  have hrest : d.skipBlanks.rest = d.rest.dropWhile isBlank := rfl
  have hlead : leadingWord d.skipBlanks.rest = [] := by
    rw [hrest]
    cases hd : d.rest.dropWhile isBlank with
    | nil => rfl
    | cons b bs =>
      have hb : isNameChar b = false := (h b (by rw [hd]; rfl)).2
      exact List.takeWhile_cons_of_neg (Bool.eq_false_iff.1 hb)
  apply Pattern.scan_keyword_of_ne hw
  rw [hlead]
  exact hne.symm

end StandsApart

/-- A phrase that fails where no parenthesis and no word stands. -/
def NeedsMore (y : Phrase Rule) : Prop :=
  ∀ d : Cursor, StandsApart d.rest → Derives cql2 (.phrase y) d.skipBlanks none

namespace NeedsMore

theorem parens (x : Phrase Rule) : NeedsMore (.parens x) :=
  fun _ h => .seqLeft (.noMark h.scan_open)

theorem rule (hr : cql2.define r = .phrase (.parens x)) : NeedsMore (.rule r) :=
  fun d h => .noNode hr (parens x d h)

theorem geometryContent (hy : NeedsMore y) : NeedsMore (.seq (.optional (.rule .kwZ)) y) := by
  intro d h
  have habsent : Derives cql2 (.phrase (.rule .kwZ)) d.skipBlanks none :=
    .noToken rfl (h.scan_keyword rfl (List.cons_ne_nil _ _))
  refine .seqRight (.absent habsent) ?_
  rw [d.skipBlanks_skipBlanks]
  exact hy d h

end NeedsMore

section Words

variable {c : Cursor} {w rest : List Char}

/-- A rule that goes on behind its keyword fails at a word, whether or not it is the keyword. -/
theorem derives_none_of_needsMore (hc : c.rest = w ++ rest) (hw : w.all isNameChar = true)
    (h : StandsApart rest) (hr : cql2.define r = .phrase (.seq (.rule kw) y))
    (hkw : cql2.define kw = .token (.keyword k)) (hk : k ∈ keywords) (hy : NeedsMore y) :
    Derives cql2 (.phrase (.rule r)) c none := by
  cases hs : (Pattern.keyword k).scan c.rest with
  | none => exact .noNode hr (.seqLeft (.noToken hkw hs))
  | some m =>
    obtain ⟨taken, behind⟩ := m
    obtain ⟨-, hbehind, -⟩ := (Pattern.scan_keyword_iff (isNameChar_of_mem_keywords k hk)).1 hs
    rw [hc, (Pattern.leadingWord_append hw h.endsWord).2] at hbehind
    cases hbehind
    exact .noNode hr (.seqRight (.token hkw hs) (hy _ h))

theorem derives_geometry_none (hc : c.rest = w ++ rest) (hw : w.all isNameChar = true)
    (h : StandsApart rest) : Derives cql2 (.phrase (.rule .geometryLiteral)) c none := by
  have hnone {r kw : Rule} {k : String} {y : Phrase Rule}
      (hr : cql2.define r = .phrase (.seq (.rule kw) y))
      (hkw : cql2.define kw = .token (.keyword k)) (hk : k ∈ keywords) (hy : NeedsMore y) :
      Derives cql2 (.phrase (.rule r)) c none := derives_none_of_needsMore hc hw h hr hkw hk hy
  have hrules : ∀ q ∈ geometryRules, Derives cql2 (.phrase (.rule q)) c none := by
    simp only [geometryRules, List.forall_mem_cons]
    refine ⟨?_, ?_, ?_, ?_, ?_, ?_, ?_, fun _ hq => absurd hq List.not_mem_nil⟩
    · exact hnone rfl rfl (by decide) (.geometryContent (.parens _))
    · exact hnone rfl rfl (by decide) (.geometryContent (.rule rfl))
    · exact hnone rfl rfl (by decide) (.geometryContent (.rule rfl))
    · exact hnone rfl rfl (by decide) (.geometryContent (.parens _))
    · exact hnone rfl rfl (by decide) (.geometryContent (.rule rfl))
    · exact hnone rfl rfl (by decide) (.geometryContent (.rule rfl))
    · exact hnone rfl rfl (by decide) (.parens _)
  exact .noNode rfl (derives_anyOf_none (List.cons_ne_nil _ _) hrules)

theorem scan_text_of_isNameStart (hb : isNameStart b = true) (hx : isNameStart x = false)
    (bs : List Char) : (Pattern.text [x]).scan (b :: bs) = none := by
  refine ((Pattern.Single.text x).cons b bs).trans (if_neg fun he => ?_)
  rw [eq_of_beq he, hb] at hx
  cases hx

theorem isDigit_of_isNameStart (hb : isNameStart b = true) : b.isDigit = false := by
  cases hd : b.isDigit with
  | false => rfl
  | true =>
    have hfront := List.all_eq_true.1 front_digit b (mem_decimalDigits hd)
    rw [hb] at hfront
    cases hfront

theorem scan_number_of_isNameStart (hb : isNameStart b = true) (bs : List Char) :
    Pattern.number.scan (b :: bs) = none := by
  have hdigits : Pattern.digits.scan (b :: bs) = none :=
    Pattern.scan_seq_of_none (if_neg (Bool.eq_false_iff.1 (isDigit_of_isNameStart hb)))
  have hpoint : (Pattern.str ".").scan (b :: bs) = none := scan_text_of_isNameStart hb rfl bs
  apply Pattern.scan_seq_of_none
  refine (Pattern.scan_choice_of_none (Pattern.scan_seq_of_none hdigits) _).trans ?_
  exact Pattern.scan_seq_of_none hpoint

def IsWord (w : List Char) : Prop :=
  ∃ b bs, w = b :: bs ∧ isNameStart b = true ∧ bs.all isNameChar = true

namespace IsWord

theorem isNameChar (hw : IsWord w) : w.all isNameChar = true := by
  obtain ⟨b, bs, rfl, hb, hbs⟩ := hw
  rw [List.all_cons, Pattern.isNameChar_of_isNameStart hb, hbs]
  rfl

theorem scan_keyword (hw : IsWord w) (hc : c.rest = w ++ rest) (h : EndsWord rest)
    (hk : k ∈ Pattern.reservedWords) (hne : w.map Char.toLower ≠ k.toList) :
    (Pattern.keyword k).scan c.rest = none := by
  apply Pattern.scan_keyword_of_ne (isNameChar_of_mem_keywords k (List.mem_append_left _ hk))
  rw [hc, (Pattern.leadingWord_append hw.isNameChar h).1]
  exact hne

theorem scan_text (hw : IsWord w) (hc : c.rest = w ++ rest) (hx : isNameStart x = false) :
    (Pattern.text [x]).scan c.rest = none := by
  obtain ⟨b, bs, rfl, hb, -⟩ := hw
  rw [hc]
  exact scan_text_of_isNameStart hb hx (bs ++ rest)

theorem derives_none (hw : IsWord w) (hc : c.rest = w ++ rest) (h : StandsApart rest) :
    ∀ q ∈ [.minus, .geometryLiteral, .bbox, .interval, .timestampLiteral, .dateLiteral,
      .numberLiteral, .stringLiteral, .parenthesized],
      Derives cql2 (.phrase (.rule q)) c none := by
  have hnone {r kw : Rule} {k : String} {x : Phrase Rule}
      (hr : cql2.define r = .phrase (.seq (.rule kw) (.parens x)))
      (hkw : cql2.define kw = .token (.keyword k)) (hk : k ∈ keywords) :
      Derives cql2 (.phrase (.rule r)) c none :=
    derives_none_of_needsMore hc hw.isNameChar h hr hkw hk (.parens x)
  have hnumber : Pattern.number.scan c.rest = none := by
    obtain ⟨b, bs, rfl, hb, -⟩ := hw
    rw [hc]
    exact scan_number_of_isNameStart hb (bs ++ rest)
  simp only [List.forall_mem_cons]
  exact ⟨.noToken rfl (hw.scan_text hc rfl), derives_geometry_none hc hw.isNameChar h,
    hnone rfl rfl (by decide), hnone rfl rfl (by decide), hnone rfl rfl (by decide),
    hnone rfl rfl (by decide), .noToken rfl hnumber,
    .noToken rfl (Pattern.scan_seq_of_none (hw.scan_text hc rfl)),
    .noNode rfl (.seqLeft (.noMark (hw.scan_text hc rfl))),
    fun _ hq => absurd hq List.not_mem_nil⟩

theorem derives_quoted_none (hw : IsWord w) (hc : c.rest = w ++ rest) :
    Derives cql2 (.phrase (.rule .quotedIdentifier)) c none :=
  .noToken rfl (Pattern.scan_seq_of_none (hw.scan_text hc rfl))

end IsWord

namespace BareName

theorem scan_reserved (hw : BareName w) (hc : c.rest = w ++ rest) (h : EndsWord rest) :
    ∀ r ∈ Pattern.reservedWords, (Pattern.keyword r).scan c.rest = none :=
  fun r hr => IsWord.scan_keyword hw.isWord hc h hr (hw.free r hr)

theorem scan_identifier (hw : BareName w) (hc : c.rest = w ++ rest) (h : EndsWord rest) :
    Pattern.identifier.scan c.rest = some (w, rest) := by
  have hfree := hw.scan_reserved hc h
  obtain ⟨b, bs, rfl, hb, hbs⟩ := hw.isWord
  rw [hc] at hfree ⊢
  exact Pattern.scan_identifier hb hbs h hfree

theorem derives_none (hw : BareName w) (hc : c.rest = w ++ rest) (h : StandsApart rest) :
    ∀ q ∈ .kwNot :: .minus :: primaryRules.take 11, Derives cql2 (.phrase (.rule q)) c none := by
  have hreserved := hw.scan_reserved hc h.endsWord
  have hmore := IsWord.derives_none hw.isWord hc h
  have hboolean : Derives cql2 (.phrase (.rule .booleanLiteral)) c none :=
    .noNode rfl (.choiceRight (.noToken rfl (hreserved "true" (by decide)))
      (.noToken rfl (hreserved "false" (by decide))))
  have hname : Derives cql2 (.phrase (.rule .functionCall)) c none :=
    .noNode rfl (.seqRight (.token rfl (hw.scan_identifier hc h.endsWord))
      (NeedsMore.parens _ _ h))
  simp only [List.forall_mem_cons] at hmore
  obtain ⟨hminus, hgeometry, hbbox, hinterval, htimestamp, hdate, hnumber, hstring, hparens, -⟩ :=
    hmore
  simp only [primaryRules, List.take, List.forall_mem_cons]
  exact ⟨.noToken rfl (hreserved "not" (by decide)), hminus, hgeometry, hbbox, hinterval,
    htimestamp, hdate, hboolean, .noNode rfl (.noToken rfl (hreserved "null" (by decide))), hname,
    hnumber, hstring, hparens, fun _ hq => absurd hq List.not_mem_nil⟩

theorem yields (hw : BareName w) (hc : c.rest = w ++ rest) (h : EndsWord rest) :
    Yields .property c (c.moveTo w rest)
      (.property (.between c.position (c.moveTo w rest).position) (.ofList w)) :=
  ⟨_, .node rfl (.choiceRight (IsWord.derives_quoted_none hw.isWord hc)
    (.token rfl (hw.scan_identifier hc h))), rfl⟩

theorem spells (hw : BareName w) (hc : c.rest = w ++ rest) (h : StandsApart rest) :
    Spells .property c (c.moveTo w rest) (.property .zero (.ofList w)) := by
  obtain ⟨t, ht, he⟩ := hw.yields hc h.endsWord
  exact ⟨t, _, ht, he, rfl⟩

end BareName
end Words

theorem OfText.expr_minus (h : expr t = .ok e) (s s' : Text.Span) (lexeme : List Char) :
    expr (.node .unary s [.token .minus s' lexeme, t]) = .ok (.unary s .minus e) := by
  simp only [expr, signed, h]
  rfl

theorem OfText.expr_quoted (name : String) (s s' : Text.Span) :
    expr (.node .property s [.token .quotedIdentifier s' ('"' :: name.toList ++ ['"'])]) =
      .ok (.property s name) := by
  rw [expr, propertyExpr, Text.between_quotes, String.ofList_toList]

theorem OfText.expr_comparison (h : expr t = .ok e) (h' : expr t' = .ok e')
    (hop : BinaryOp.ofToken? (.ofList lexeme) = some op) (s s' s'' : Text.Span) :
    expr (.node .predicate s
      [t, .node .comparisonTail s' [.token .comparisonOp s'' lexeme, t']]) =
        .ok (.binary s op e e') := by
  have htail : predicate s e (.node .comparisonTail s' [.token .comparisonOp s'' lexeme, t']) =
      .ok (.binary s op e e') := by
    simp only [predicate, related, operator_token hop, h']
    rfl
  show (do predicate s (← expr t) (.node .comparisonTail s' _)) = _
  simp only [h, bind, Except.bind]
  exact htail

section Operands

variable {c d : Cursor} {e e' : Expr}

theorem Spells.minus (hc : c.rest = '-' :: rest)
    (h : Spells .unary (c.moveTo ['-'] rest).skipBlanks d e) :
    Spells .unary c d (.unary .zero .minus e) := by
  obtain ⟨t, f, ht, hf, rfl⟩ := h
  have hsign : (Pattern.str "-").scan c.rest = some (['-'], rest) := by
    rw [hc]
    rfl
  exact ⟨_, _, .node rfl (.choiceLeft (.seq (.token rfl hsign) ht)), OfText.expr_minus hf _ _ _,
    rfl⟩

theorem spells_numeral (ht : Numeral t) (hl : Literal.ofNumeral? t = some l)
    (hc : c.rest = t ++ rest) (h : EndsWord rest) :
    Spells .unary c (c.moveTo t rest) (.literal .zero l) := by
  have hscan : Pattern.number.scan c.rest = some (t, rest) := by
    rw [hc]
    exact Pattern.scan_number ht h
  have hliteral : Spells .numberLiteral c (c.moveTo t rest) (.literal .zero l) :=
    ⟨_, _, .token rfl hscan, OfText.expr_numeral (.inl rfl) hl _, rfl⟩
  refine hliteral.primary 8 rfl ?_
  obtain ⟨b, bs, rfl, hb⟩ := ht.exists_digit
  exact (List.forall_mem_cons.1 (derives_of_isDigit hc hb)).2

theorem spells_string (s : String) (hc : c.rest = Text.quote '\'' s.toList ++ rest)
    (h : rest.head? ≠ some '\'') :
    Spells .unary c (c.moveTo (Text.quote '\'' s.toList) rest) (.literal .zero (.string s)) := by
  have hscan : Pattern.string.scan c.rest = some (Text.quote '\'' s.toList, rest) := by
    rw [hc]
    exact Pattern.scan_string s.toList h
  have hvalue : OfText.stringValue (Text.quote '\'' s.toList) = s := by
    rw [stringValue_quote, String.ofList_toList]
  have hliteral : Spells .stringLiteral c (c.moveTo (Text.quote '\'' s.toList) rest)
      (.literal .zero (.string s)) := by
    refine ⟨_, _, .token rfl hscan, rfl, ?_⟩
    rw [hvalue]
    rfl
  exact hliteral.primary 9 rfl
    (RuleSet.derives_of_front (n := 3) (.minus :: primaryRules.take 9) hc rfl rfl)

theorem derives_none_of_quote (hc : c.rest = '"' :: rest) :
    ∀ q ∈ .kwNot :: .minus :: primaryRules.take 11, Derives cql2 (.phrase (.rule q)) c none := by
  have hmiss : ∀ q ∈ .kwNot :: .minus :: primaryRules.take 10,
      Derives cql2 (.phrase (.rule q)) c none :=
    RuleSet.derives_of_front (n := 3) _ hc rfl rfl
  have hparens : Derives cql2 (.phrase (.rule .parenthesized)) c none := by
    refine .noNode rfl (.seqLeft (.noMark ?_))
    rw [hc]
    rfl
  exact List.forall_mem_append.2 ⟨hmiss, List.forall_mem_singleton.2 hparens⟩

theorem spells_quoted (h : Expr.PrintableProperty name)
    (hc : c.rest = '"' :: name.toList ++ ['"'] ++ rest) :
    Spells .property c (c.moveTo ('"' :: name.toList ++ ['"']) rest) (.property .zero name) := by
  obtain ⟨hne, hquote⟩ := h
  have hne : name.toList ≠ [] := fun hnil => hne (String.toList_eq_nil_iff.1 hnil)
  have hscan : Pattern.quotedIdentifier.scan c.rest = some ('"' :: name.toList ++ ['"'], rest) := by
    rw [hc]
    exact Pattern.scan_quotedIdentifier hne hquote rest
  exact ⟨_, _, .node rfl (.choiceLeft (.token rfl hscan)), OfText.expr_quoted name _ _, rfl⟩

/-- A name that stands apart is an operand, and no negation. -/
theorem NameText.spells (h : NameText name w) (hc : c.rest = w.toList ++ rest)
    (hrest : StandsApart rest) :
    Derives cql2 (.phrase (.rule .kwNot)) c none ∧
      Spells .unary c (c.moveTo w.toList rest) (.property .zero name) := by
  cases h with
  | bare hname =>
    obtain ⟨hnot, hmiss⟩ := List.forall_mem_cons.1 (hname.derives_none hc hrest)
    have hspells := hname.spells hc hrest
    rw [String.ofList_toList] at hspells
    exact ⟨hnot, hspells.primary 11 rfl hmiss⟩
  | quoted hname =>
    have htext : ("\"" ++ name ++ "\"").toList = '"' :: name.toList ++ ['"'] := by simp
    rw [htext] at hc ⊢
    obtain ⟨hnot, hmiss⟩ := List.forall_mem_cons.1 (derives_none_of_quote hc)
    exact ⟨hnot, (spells_quoted hname hc).primary 11 rfl hmiss⟩

theorem Spells.operand (h : Spells .unary c d e)
    (hmul : cql2.misses 1 d.skipBlanks.rest .mulOp = true)
    (hadd : cql2.misses 1 d.skipBlanks.rest .addOp = true) :
    Spells .additive c d.skipBlanks e := by
  have hmultiplicative := h.chain chains_multiplicative hmul
  have hadditive := hmultiplicative.chain chains_additive (by rwa [d.skipBlanks_skipBlanks])
  rwa [d.skipBlanks_skipBlanks] at hadditive

theorem Spells.comparison (h : Spells .additive c d e)
    (hs : (Pattern.anyOf (["<>", "<=", ">=", "<", ">", "="].map Pattern.str)).scan
      d.skipBlanks.rest = some (lexeme, rest))
    (hop : BinaryOp.ofToken? (.ofList lexeme) = some op)
    (h' : Spells .additive (d.skipBlanks.moveTo lexeme rest).skipBlanks d' e') :
    Spells .predicate c d' (.binary .zero op e e') := by
  obtain ⟨t, f, ht, hf, rfl⟩ := h
  obtain ⟨t', f', ht', hf', rfl⟩ := h'
  exact ⟨_, _, .node rfl (.seq ht (.optional (.choiceLeft (.node rfl (.seq (.token rfl hs) ht'))))),
    OfText.expr_comparison hf hf' hop _ _ _, rfl⟩

end Operands

theorem NameText.solid (h : NameText name w) : Solid w.toList := by
  cases h with
  | bare hname =>
    obtain ⟨b, bs, hword, hb, -⟩ := hname.isWord
    exact ⟨b, bs, hword, isBlank_of_isNameChar (Pattern.isNameChar_of_isNameStart hb)⟩
  | quoted hname => exact ⟨'"', name.toList ++ ['"'], by simp, rfl⟩

theorem Literal.toList_write_string (s : String) :
    (Literal.string s).write.toList = Text.quote '\'' s.toList := by
  rw [write, String.toList_ofList]

/-- A text that is an operand where nothing follows it. -/
structure OperandText (t : List Char) (e : Expr) : Prop where
  solid : Solid t
  spells : ∀ c : Cursor, c.rest = t → ∃ d, d.rest = [] ∧ Spells .unary c d e

namespace OperandText

theorem numeral (ht : Numeral t) (hl : Literal.ofNumeral? t = some l) :
    OperandText t (.literal .zero l) := by
  refine ⟨(SignedNumeral.plain ht).solid, fun c hc => ⟨_, rfl, spells_numeral ht hl ?_ ?_⟩⟩
  · rw [hc, List.append_nil]
  · intro b hb
    cases hb

theorem string (s : String) :
    OperandText (Literal.string s).write.toList (.literal .zero (.string s)) := by
  rw [Literal.toList_write_string]
  refine ⟨⟨_, _, rfl, rfl⟩, fun c hc => ⟨_, rfl, spells_string s ?_ (by decide)⟩⟩
  rw [hc, List.append_nil]

theorem minus (h : OperandText t e) : OperandText ('-' :: t) (.unary .zero .minus e) := by
  refine ⟨⟨'-', t, rfl, rfl⟩, fun c hc => ?_⟩
  obtain ⟨b, bs, rfl, hb⟩ := h.solid
  obtain ⟨d, hd, hspells⟩ := h.spells (c.moveTo ['-'] (b :: bs)).skipBlanks
    (List.dropWhile_cons_of_neg (Bool.eq_false_iff.1 hb))
  exact ⟨d, hd, .minus hc hspells⟩

end OperandText

/-- A name, the sign of equality and an operand are read as a comparison of the property with the
operand. -/
theorem ofText_equals (hname : NameText name w) (ht : OperandText t.toList e) :
    ∃ e', Expr.ofText (w ++ " = " ++ t) = .ok e' ∧
      e'.unplaced = .binary .zero (.comparison .equal) (.property .zero name) e := by
  have htext : (Cursor.ofText (w ++ " = " ++ t).toList).skipBlanks.rest =
      w.toList ++ (" = ".toList ++ t.toList) := by
    obtain ⟨b, bs, hw, hb⟩ := hname.solid
    have hrest : (Cursor.ofText (w ++ " = " ++ t).toList).rest =
        b :: (bs ++ (" = ".toList ++ t.toList)) := by
      simp [Cursor.ofText, hw]
    rw [Cursor.skipBlanks_eq, hrest, hw, List.cons_append]
    rw [hrest, List.dropWhile_cons_of_neg (Bool.eq_false_iff.1 hb)]
  have hapart : StandsApart (" = ".toList ++ t.toList) := by
    rintro b ⟨⟩
    exact ⟨by decide, rfl⟩
  obtain ⟨hnot, hproperty⟩ := hname.spells htext hapart
  have hleft := hproperty.operand rfl rfl
  have hblank : (' ' :: t.toList).dropWhile isBlank = t.toList := by
    obtain ⟨b, bs, hb, hsolid⟩ := ht.solid
    rw [List.dropWhile_cons_of_pos rfl, hb,
      List.dropWhile_cons_of_neg (Bool.eq_false_iff.1 hsolid)]
  obtain ⟨d, hd, hright⟩ := ht.spells (Cursor.moveTo _ ['='] (' ' :: t.toList)).skipBlanks hblank
  have hend : d.skipBlanks.rest = [] := by
    show d.rest.dropWhile isBlank = []
    rw [hd]
    rfl
  have hright := hright.operand (by rw [hend]; rfl) (by rw [hend]; rfl)
  have hpredicate := hleft.comparison rfl rfl hright
  rw [← d.skipBlanks_skipBlanks] at hend
  have hconjunction := (hpredicate.unnegated hnot).chain chains_conjunction (by rw [hend]; rfl)
  exact hconjunction.whole (by rw [d.skipBlanks.skipBlanks_skipBlanks, hend])

end FeatureFilter
