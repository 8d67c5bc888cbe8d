import FeatureFilter.Proofs.Sql.Comparisons

namespace FeatureFilter

open Grammar Sql

section Numerals

variable {column name w t : String} {c : Collection} {options : Options} {v : Value}

theorem compile_equals_numeral (hname : NameText name w) (hc : c.resolve name = .ok column)
    (hlanguage : options.language = .text)
    (hdepth : ∀ limit, options.maxDepth = some limit → 3 ≤ limit) (ht : Numeral t.toList)
    (hl : Literal.ofNumeral? t.toList = some l) (hv : literal l = .bind v) :
    compile (w ++ " = " ++ t) c options =
      .ok ⟨"(" ++ quoteColumn column ++ " = " ++ placeholder options.paramOffset ++ ")", [v]⟩ := by
  refine compile_equals_literal hname hc hlanguage ?_ (.numeral ht hl) hv
  intro limit hlimit
  exact Nat.le_of_succ_le (hdepth limit hlimit)

theorem compile_equals_minus (hname : NameText name w) (hc : c.resolve name = .ok column)
    (hlanguage : options.language = .text)
    (hdepth : ∀ limit, options.maxDepth = some limit → 3 ≤ limit)
    (htext : t.toList = '-' :: cs) (ht : Numeral cs) (hl : Literal.ofNumeral? cs = some l)
    (hv : literal l = .bind v) :
    compile (w ++ " = " ++ t) c options =
      .ok ⟨"(" ++ quoteColumn column ++ " = (-" ++ placeholder options.paramOffset ++ "))",
        [v]⟩ := by
  have hoperand := (OperandText.numeral ht hl).minus
  rw [← htext] at hoperand
  have houtline : (Expr.unary .zero .minus (.literal .zero l)).outline c =
      .minus .hole := congrArg Outline.minus (Outline.ofLiteral_of_bind hv)
  have hvalues : (render c (.unary .zero .minus (.literal .zero l))).values = [v] := by
    rw [render, render, hv]
    rfl
  rw [compile_equals hname hoperand hlanguage, compileExpr_equals hc, houtline, hvalues]
  · rw [Except.ok.injEq, Fragment.mk.injEq, ← String.toList_inj]
    simp [Outline.marks, text_parenthesized, text, Token.text]
  · rw [houtline]
    rfl
  · intro limit hlimit
    exact hdepth limit hlimit

end Numerals

theorem toList_toString_neg {n : Int} (h : n < 0) :
    (toString n).toList = '-' :: Nat.toDigits 10 n.natAbs := by
  rw [Int.toString_eq_repr]
  cases n with
  | ofNat m => exact absurd h (Int.not_lt.2 (Int.natCast_nonneg m))
  | negSucc m =>
    rw [Int.repr, String.toList_append, Nat.toList_repr]
    rfl

theorem toInt_neg_of_ne {n : Int64} (h : n ≠ Int64.minValue) : (-n).toInt = -n.toInt := by
  have hne : Int64.minValue.toInt ≠ n.toInt := fun he => h (Int64.toInt_inj.1 he.symm)
  have hle := n.minValue_le_toInt
  have hlt := n.toInt_lt
  rw [Int64.toInt_minValue] at hne hle
  rw [Int64.toInt_neg]
  apply Int.bmod_eq_of_le
  · omega
  · omega

/-- The magnitude of a negative integer is in range, unless it is that of the least one. -/
theorem ofNumeral?_magnitude {n : Int64} (h : n.toInt < 0) (hmin : n ≠ Int64.minValue) :
    Literal.ofNumeral? (Nat.toDigits 10 n.toInt.natAbs) = some (.integer (-n)) := by
  have hrange : int64? (n.toInt.natAbs : Int) = some (-n) := by
    rw [Int.ofNat_natAbs_of_nonpos (Int.le_of_lt h), ← toInt_neg_of_ne hmin]
    exact Literal.int64?_toInt (-n)
  exact Literal.ofNumeral?_whole false n.toInt.natAbs
    (splitSign_numeral (Literal.numeral_toDigits _)) hrange

theorem ofNumeral?_magnitude_minValue :
    Literal.ofNumeral? (Nat.toDigits 10 Int64.minValue.toInt.natAbs) =
      some (.number (.ofInt 9223372036854775808)) := by
  decide +kernel

/-- A property compared with an integer is compiled and binds one value: the integer, or behind a
minus the magnitude of a negative one. The magnitude of the least integer is bound as a double. -/
theorem compile_equals_integer {column : String} (hname : NameText p w)
    (hp : Collection.Holds c p column) (hcolumn : Text.isBlank column = false)
    (hlanguage : options.language = .text)
    (hdepth : ∀ limit, options.maxDepth = some limit → 3 ≤ limit) (n : Int64) :
    (0 ≤ n.toInt → compile (w ++ " = " ++ toString n.toInt) c options =
      .ok ⟨"(" ++ quoteColumn column ++ " = " ++ placeholder options.paramOffset ++ ")",
        [.bigint n]⟩) ∧
    (n.toInt < 0 → n ≠ Int64.minValue → (-n).toInt = -n.toInt ∧
      compile (w ++ " = " ++ toString n.toInt) c options =
        .ok ⟨"(" ++ quoteColumn column ++ " = (-" ++ placeholder options.paramOffset ++ "))",
          [.bigint (-n)]⟩) ∧
    (n = Int64.minValue → compile (w ++ " = " ++ toString n.toInt) c options =
      .ok ⟨"(" ++ quoteColumn column ++ " = (-" ++ placeholder options.paramOffset ++ "))",
        [.double (.ofInt 9223372036854775808)]⟩) := by
  have hc : c.resolve p = .ok column := (c.resolve_eq_ok_iff p column).2 ⟨hp, hcolumn⟩
  refine ⟨fun hn => ?_, fun hn hmin => ⟨toInt_neg_of_ne hmin, ?_⟩, ?_⟩
  · exact compile_equals_numeral hname hc hlanguage hdepth (Literal.numeral_toString hn)
      (Literal.ofNumeral?_toString n) rfl
  · exact compile_equals_minus hname hc hlanguage hdepth (toList_toString_neg hn)
      (Literal.numeral_toDigits _) (ofNumeral?_magnitude hn hmin) rfl
  · rintro rfl
    exact compile_equals_minus hname hc hlanguage hdepth (toList_toString_neg (by decide))
      (Literal.numeral_toDigits _) ofNumeral?_magnitude_minValue rfl

/-- The ends of the range of magnitudes, for a property whose name is the keyword of dates. -/
theorem compile_equals_integer_ends :
    compile ("date" ++ " = " ++ "9223372036854775807")
      ((Collection.new "lakes" ["date"] "geom").withProperty "date" "surveyed") {} =
        .ok ⟨"(\"surveyed\" = $1)", [.bigint Int64.maxValue]⟩ ∧
    compile ("date" ++ " = " ++ "-9223372036854775807")
      ((Collection.new "lakes" ["date"] "geom").withProperty "date" "surveyed") {} =
        .ok ⟨"(\"surveyed\" = (-$1))", [.bigint Int64.maxValue]⟩ := by
  have hname : NameText "date" "date" := .bare ⟨⟨'d', "ate".toList, rfl, rfl, rfl⟩, by decide⟩
  have hp : ((Collection.new "lakes" ["date"] "geom").withProperty "date" "surveyed").Holds "date"
      "surveyed" := ⟨List.mem_cons_self, rfl⟩
  have hdepth : ∀ limit, ({} : Options).maxDepth = some limit → 3 ≤ limit := by
    intro limit h
    cases h
  have hends := compile_equals_integer hname hp rfl rfl hdepth
  exact ⟨(hends Int64.maxValue).1 (by decide),
    ((hends (-Int64.maxValue)).2.1 (by decide) (by decide)).2⟩

/-- The least integer is not bound as an integer. -/
theorem compile_equals_minValue_double :
    toString Int64.minValue.toInt = "-9223372036854775808" ∧
    compile ("p" ++ " = " ++ "-9223372036854775808")
      ((Collection.new "lakes" ["p"] "geom").withProperty "p" "p") {} =
        .ok ⟨"(\"p\" = (-$1))", [.double (.ofInt 9223372036854775808)]⟩ := by
  have hname : NameText "p" "p" := .bare ⟨⟨'p', [], rfl, rfl, rfl⟩, by decide⟩
  have hc : ((Collection.new "lakes" ["p"] "geom").withProperty "p" "p").resolve "p" = .ok "p" :=
    rfl
  have hdepth : ∀ limit, ({} : Options).maxDepth = some limit → 3 ≤ limit := by
    intro limit h
    cases h
  have htext : toString Int64.minValue.toInt = "-9223372036854775808" := by decide
  refine ⟨htext, ?_⟩
  rw [← htext]
  exact compile_equals_minus hname hc rfl hdepth (toList_toString_neg (by decide))
    (Literal.numeral_toDigits _) ofNumeral?_magnitude_minValue rfl

end FeatureFilter
