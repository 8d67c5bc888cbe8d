import FeatureFilter.Filter.Literal
import FeatureFilter.Proofs.Grammar.Words
import FeatureFilter.Proofs.Number.Shortest

namespace FeatureFilter

open Grammar
open Number (Binary64 Decimal Layout)
open Time (digitsValue)

def Number.Layout.pointed : Layout where
  tie := .up
  positional _ := true
  pointZero := true

/-- Digits, perhaps with a point and digits behind it. -/
inductive Numeral : List Char → Prop
  | whole : ws ≠ [] → ws.all Char.isDigit = true → Numeral ws
  | pointed : ws ≠ [] → ws.all Char.isDigit = true → ps ≠ [] → ps.all Char.isDigit = true →
    Numeral (ws ++ '.' :: ps)

inductive SignedNumeral : List Char → Prop
  | plain : Numeral cs → SignedNumeral cs
  | minus : Numeral cs → SignedNumeral ('-' :: cs)

theorem Numeral.exists_digit (h : Numeral cs) : ∃ d ds, cs = d :: ds ∧ d.isDigit = true := by
  have hfirst {ws : List Char} (hne : ws ≠ []) (hall : ws.all Char.isDigit = true) :
      ∃ d ds, ws = d :: ds ∧ d.isDigit = true := by
    cases ws with
    | nil => exact absurd rfl hne
    | cons d ds => exact ⟨d, ds, rfl, (Bool.and_eq_true_iff.1 (List.all_cons.symm.trans hall)).1⟩
  cases h with
  | whole hne hall => exact hfirst hne hall
  | pointed hne hall =>
    obtain ⟨d, ds, rfl, hd⟩ := hfirst hne hall
    exact ⟨d, _, rfl, hd⟩

namespace Grammar.Pattern

theorem isNameChar_of_isDigit (h : c.isDigit = true) : isNameChar c = true := by
  simp only [isNameChar, h, Bool.or_true, Bool.true_or]

theorem scan_digit_of_endsWord (h : EndsWord rest) : (one .digit).scan rest = none := by
  cases rest with
  | nil => rfl
  | cons c cs =>
    have hc := h c rfl
    rw [(Single.one .digit).cons]
    apply if_neg
    intro hd
    rw [isNameChar_of_isDigit hd] at hc
    cases hc

theorem scan_text_of_endsWord (h : EndsWord rest) (hw : isNameChar w = true) :
    (text [w]).scan rest = none := by
  cases rest with
  | nil => rfl
  | cons c cs =>
    have hc := h c rfl
    rw [(Single.text w).cons]
    apply if_neg
    intro he
    rw [← eq_of_beq he, hw] at hc
    cases hc

theorem scan_anyCase_of_endsWord (h : EndsWord rest) (hw : isNameChar w = true) :
    (anyCase (w :: ws)).scan rest = none := by
  cases hs : (anyCase (w :: ws)).scan rest with
  | none => rfl
  | some m =>
    obtain ⟨taken, more⟩ := m
    obtain ⟨hlower, rfl⟩ := scan_anyCase_iff.1 hs
    cases taken with
    | nil => cases hlower
    | cons c taken =>
      have hc := h c rfl
      rw [← isNameChar_toLower, (List.cons.inj hlower).1, hw] at hc
      cases hc

theorem scan_digits (hne : ws ≠ []) (hall : ws.all Char.isDigit = true)
    (hrest : (one .digit).scan rest = none) : digits.scan (ws ++ rest) = some (ws, rest) := by
  cases ws with
  | nil => exact absurd rfl hne
  | cons w ws =>
    obtain ⟨hw, hall⟩ := Bool.and_eq_true_iff.1 (List.all_cons.symm.trans hall)
    have hfirst : (one .digit).scan (w :: (ws ++ rest)) = some ([w], ws ++ rest) := if_pos hw
    have hmore := (Single.one .digit).scan_many (ws ++ rest)
    obtain ⟨htake, hdrop⟩ := (Single.one .digit).takeWhile_append hall hrest
    rw [htake, hdrop] at hmore
    rw [digits, atLeastOne, List.cons_append, scan_seq_of_some hfirst, hmore]
    rfl

theorem scan_mantissa (h : Numeral cs) (hrest : EndsWord rest) :
    (seq digits (optional (seq (str ".") (many (one .digit))))).scan (cs ++ rest) =
      some (cs, rest) := by
  have hdigit := scan_digit_of_endsWord hrest
  cases h with
  | whole hne hall =>
    have hpoint : (str ".").scan rest = none := scan_text_of_endsWord hrest rfl
    rw [scan_seq_of_some (scan_digits hne hall hdigit),
      scan_optional_of_none (scan_seq_of_none hpoint)]
    simp only [Option.map_some, List.append_nil]
  | @pointed ws ps hne hall hne' hall' =>
    have hpoint : (str ".").scan ('.' :: (ps ++ rest)) = some (['.'], ps ++ rest) := rfl
    have hmore := (Single.one .digit).scan_many (ps ++ rest)
    obtain ⟨htake, hdrop⟩ := (Single.one .digit).takeWhile_append hall' hdigit
    rw [htake, hdrop] at hmore
    have hplaces : (seq (str ".") (many (one .digit))).scan ('.' :: (ps ++ rest)) =
        some ('.' :: ps, rest) := by
      rw [scan_seq_of_some hpoint, hmore]
      rfl
    rw [List.append_assoc, List.cons_append, scan_seq_of_some (scan_digits hne hall rfl),
      scan_optional_of_some hplaces]
    rfl

theorem scan_number (h : Numeral cs) (hrest : EndsWord rest) :
    number.scan (cs ++ rest) = some (cs, rest) := by
  have hfront := scan_choice_of_some (scan_mantissa h hrest) (seq (str ".") digits)
  have hexponent : (seq (anyCase ['e']) (seq (optional sign) digits)).scan rest = none :=
    scan_seq_of_none (scan_anyCase_of_endsWord hrest rfl)
  refine (scan_seq_of_some hfront).trans ?_
  rw [scan_optional_of_none hexponent]
  simp only [Option.map_some, List.append_nil]

theorem single_sign : Single sign fun c => '+' == c || '-' == c :=
  (Single.text '+').choice (.text '-')

theorem scan_signedNumber (h : SignedNumeral cs) (hrest : EndsWord rest) :
    (seq (optional sign) number).scan (cs ++ rest) = some (cs, rest) := by
  cases h with
  | plain h =>
    obtain ⟨d, ds, rfl, hd⟩ := h.exists_digit
    have hsign : sign.scan (d :: ds ++ rest) = none := by
      rw [List.cons_append, single_sign.cons]
      apply if_neg
      intro hs
      rcases Bool.or_eq_true_iff.1 hs with hs | hs <;> cases eq_of_beq hs <;> cases hd
    rw [scan_seq_of_some (scan_optional_of_none hsign), scan_number h hrest]
    rfl
  | @minus cs h =>
    have hsign : sign.scan ('-' :: (cs ++ rest)) = some (['-'], cs ++ rest) := rfl
    rw [List.cons_append, scan_seq_of_some (scan_optional_of_some hsign), scan_number h hrest]
    rfl

end Grammar.Pattern

theorem digits?_eq (hne : ds ≠ []) (hall : ds.all Char.isDigit = true) :
    digits? ds = some (digitsValue ds) := by
  rw [digits?, hall, List.isEmpty_eq_false_iff.2 hne]
  rfl

theorem digits?_eq_none (hall : ds.all Char.isDigit = false) : digits? ds = none := by
  rw [digits?, hall, Bool.and_false]
  rfl

theorem ne_of_isDigit {c b : Char} (hc : c.isDigit = true) (hb : b.isDigit = false) :
    (c != b) = true := by
  rw [bne_iff_ne]
  rintro rfl
  rw [hc] at hb
  cases hb

theorem takeWhile_append_dropWhile_of_head {p : Char → Bool} {cs ds : List Char}
    (hcs : ∀ c ∈ cs, p c = true) (hds : ∀ d ∈ ds.head?, p d = false) :
    (cs ++ ds).takeWhile p = cs ∧ (cs ++ ds).dropWhile p = ds := by
  rw [List.takeWhile_append_of_pos hcs, List.dropWhile_append_of_pos hcs]
  cases ds with
  | nil => exact ⟨List.append_nil cs, rfl⟩
  | cons d ds =>
    rw [List.takeWhile_cons, List.dropWhile_cons, hds d rfl]
    exact ⟨List.append_nil cs, rfl⟩

/-- Digits before a point or none, and an exponent or none. -/
theorem decimal?_append (hws : ws.all Char.isDigit = true)
    (hps : ps = [] ∨ ∃ places, ps = '.' :: places ∧ places.all Char.isDigit = true)
    (hxs : ∀ x ∈ xs.head?, x = 'e' ∨ x = 'E') :
    decimal? (ws ++ ps ++ xs) = (digits? (ws ++ ps.drop 1)).bind fun digits =>
      (exponent? xs).map fun exponent => ⟨digits, exponent - (ps.drop 1).length⟩ := by
  have hmantissa : ∀ c ∈ ws ++ ps, (c != 'e' && c != 'E') = true := by
    intro c hc
    have hdigit : c.isDigit = true ∨ c = '.' := by
      rcases List.mem_append.1 hc with hc | hc
      · exact .inl (List.all_eq_true.1 hws c hc)
      · rcases hps with rfl | ⟨places, rfl, hplaces⟩
        · cases hc
        · rcases List.mem_cons.1 hc with hc | hc
          · exact .inr hc
          · exact .inl (List.all_eq_true.1 hplaces c hc)
    rcases hdigit with hc | rfl
    · rw [ne_of_isDigit hc rfl, ne_of_isDigit hc rfl]
      rfl
    · rfl
  have hmark : ∀ x ∈ xs.head?, (x != 'e' && x != 'E') = false := by
    intro x hx
    rcases hxs x hx with rfl | rfl <;> rfl
  have hwhole : ∀ c ∈ ws, (c != '.') = true :=
    fun c hc => ne_of_isDigit (List.all_eq_true.1 hws c hc) rfl
  have hpoint : ∀ p ∈ ps.head?, (p != '.') = false := by
    rcases hps with rfl | ⟨places, rfl, -⟩
    · intro p hp
      cases hp
    · intro p hp
      cases hp
      rfl
  obtain ⟨htake, hdrop⟩ := takeWhile_append_dropWhile_of_head hmantissa hmark
  obtain ⟨hbefore, hbehind⟩ := takeWhile_append_dropWhile_of_head hwhole hpoint
  simp only [decimal?, htake, hdrop, hbefore, hbehind]

theorem splitSign_of_ne (hminus : c ≠ '-') (hplus : c ≠ '+') (cs : List Char) :
    splitSign (c :: cs) = (false, c :: cs) := by
  unfold splitSign
  split
  · rename_i heq
    exact absurd (List.cons.inj heq).1 hminus
  · rename_i heq
    exact absurd (List.cons.inj heq).1 hplus
  · rfl

theorem not_sign_of_isDigit {c : Char} (hc : c.isDigit = true) : c ≠ '-' ∧ c ≠ '+' :=
  ⟨bne_iff_ne.1 (ne_of_isDigit hc rfl), bne_iff_ne.1 (ne_of_isDigit hc rfl)⟩

theorem splitSign_numeral (h : Numeral cs) : splitSign cs = (false, cs) := by
  obtain ⟨d, ds, rfl, hd⟩ := h.exists_digit
  obtain ⟨hminus, hplus⟩ := not_sign_of_isDigit hd
  exact splitSign_of_ne hminus hplus ds

namespace Literal

theorem int64?_toInt (n : Int64) : int64? n.toInt = some n := by
  rw [int64?, if_pos ⟨n.minValue_le_toInt, n.toInt_le⟩, Int64.ofInt_toInt]

theorem all_isDigit_toDigits (n : Nat) : (Nat.toDigits 10 n).all Char.isDigit = true :=
  List.all_eq_true.2 fun _ h => Nat.isDigit_of_mem_toDigits (by decide) (by decide) h

theorem digitsValue_toDigits (n : Nat) : digitsValue (Nat.toDigits 10 n) = n :=
  Nat.ofDigitChars_toDigits (by decide) (by decide)

theorem numeral_toDigits (n : Nat) : Numeral (Nat.toDigits 10 n) :=
  .whole Nat.toDigits_ne_nil (all_isDigit_toDigits n)

theorem ofNumeral?_whole (negative : Bool) (m : Nat)
    (h : splitSign cs = (negative, Nat.toDigits 10 m))
    (hn : int64? (if negative then -(m : Int) else m) = some n) :
    ofNumeral? cs = some (.integer n) := by
  have hdigits := digits?_eq Nat.toDigits_ne_nil (all_isDigit_toDigits m)
  rw [digitsValue_toDigits] at hdigits
  simp only [ofNumeral?, h, hdigits, Option.bind_some, hn]

/-- An integer is written as a numeral that stands for it. -/
theorem ofNumeral?_toString (n : Int64) :
    ofNumeral? (toString n.toInt).toList = some (.integer n) := by
  have hn := int64?_toInt n
  rw [Int.toString_eq_repr]
  generalize n.toInt = i at hn
  cases i with
  | ofNat m =>
    refine ofNumeral?_whole false m ?_ hn
    rw [Int.repr, Nat.toList_repr]
    exact splitSign_numeral (numeral_toDigits m)
  | negSucc m =>
    refine ofNumeral?_whole true (m + 1) ?_ hn
    rw [Int.repr, String.toList_append, Nat.toList_repr]
    rfl

theorem signedNumeral_toString (n : Int) : SignedNumeral (toString n).toList := by
  rw [Int.toString_eq_repr]
  cases n with
  | ofNat m =>
    rw [Int.repr, Nat.toList_repr]
    exact .plain (numeral_toDigits m)
  | negSucc m =>
    rw [Int.repr, String.toList_append, Nat.toList_repr]
    exact .minus (numeral_toDigits (m + 1))

theorem numeral_toString {n : Int} (hn : 0 ≤ n) : Numeral (toString n).toList := by
  rw [Int.toString_eq_repr]
  cases n with
  | ofNat m =>
    rw [Int.repr, Nat.toList_repr]
    exact numeral_toDigits m
  | negSucc m => exact absurd hn (Int.negSucc_not_nonneg m).1

/-- Digits on both sides of a point, which stand for a double. -/
def PointedText (cs : List Char) (x : Binary64) : Prop :=
  ∃ ws ps, cs = ws ++ '.' :: ps ∧ ws ≠ [] ∧ ws.all Char.isDigit = true ∧ ps ≠ [] ∧
    ps.all Char.isDigit = true ∧ Binary64.ofDecimal false ⟨digitsValue (ws ++ ps), -ps.length⟩ = x

theorem all_isDigit_zeros (n : Nat) : (List.replicate n '0').all Char.isDigit = true := by
  rw [List.all_replicate]
  split <;> rfl

theorem digitsValue_append_zeros (ds : List Char) (n : Nat) :
    digitsValue (ds ++ List.replicate n '0') = digitsValue ds * 10 ^ n :=
  (Nat.ofDigitChars_append 0).trans (Nat.ofDigitChars_replicate_zero.trans (Nat.mul_comm _ _))

theorem pointedText_of_nonneg (hne : ds ≠ []) (hall : ds.all Char.isDigit = true) (he : 0 ≤ e) :
    PointedText (Layout.pointed.positionalText ds e)
      (Binary64.ofDecimal false ⟨digitsValue ds, e⟩) := by
  have hvalue : digitsValue (ds ++ List.replicate e.toNat '0' ++ ['0']) =
      digitsValue ds * 10 ^ (e.toNat + 1) := by
    rw [List.append_assoc, ← List.replicate_succ', digitsValue_append_zeros]
  have hexponent : -(['0'].length : Int) + (e.toNat + 1 : Nat) = e := by
    rw [List.length_singleton]
    omega
  refine ⟨ds ++ List.replicate e.toNat '0', ['0'], ?_, ?_, ?_, List.cons_ne_nil _ _, rfl, ?_⟩
  · rw [Layout.positionalText, if_pos he]
    rfl
  · exact List.append_ne_nil_of_left_ne_nil hne _
  · rw [List.all_append, hall, all_isDigit_zeros]
    rfl
  · rw [hvalue, Binary64.ofDecimal_mul_pow, hexponent]

theorem pointedText_of_lt_length (hall : ds.all Char.isDigit = true) (he : ¬0 ≤ e)
    (hplaces : (-e).toNat < ds.length) :
    PointedText (Layout.pointed.positionalText ds e)
      (Binary64.ofDecimal false ⟨digitsValue ds, e⟩) := by
  have hlength : -((ds.drop (ds.length - (-e).toNat)).length : Int) = e := by
    rw [List.length_drop]
    omega
  refine ⟨ds.take (ds.length - (-e).toNat), ds.drop (ds.length - (-e).toNat), ?_, ?_, ?_, ?_, ?_,
    ?_⟩
  · simp only [Layout.positionalText, if_neg he, if_pos hplaces]
  · rw [← List.length_pos_iff, List.length_take]
    omega
  · exact List.all_eq_true.2 fun c hc => List.all_eq_true.1 hall c (List.mem_of_mem_take hc)
  · rw [← List.length_pos_iff, List.length_drop]
    omega
  · exact List.all_eq_true.2 fun c hc => List.all_eq_true.1 hall c (List.mem_of_mem_drop hc)
  · rw [List.take_append_drop, hlength]

theorem pointedText_of_length_le (hne : ds ≠ []) (hall : ds.all Char.isDigit = true) (he : ¬0 ≤ e)
    (hplaces : ¬(-e).toNat < ds.length) :
    PointedText (Layout.pointed.positionalText ds e)
      (Binary64.ofDecimal false ⟨digitsValue ds, e⟩) := by
  have hvalue : digitsValue (['0'] ++ (List.replicate ((-e).toNat - ds.length) '0' ++ ds)) =
      digitsValue ds := by
    rw [← List.append_assoc, List.singleton_append, ← List.replicate_succ]
    refine (Nat.ofDigitChars_append 0).trans ?_
    rw [Nat.ofDigitChars_replicate_zero, Nat.mul_zero]
    rfl
  have hlength : -((List.replicate ((-e).toNat - ds.length) '0' ++ ds).length : Int) = e := by
    rw [List.length_append, List.length_replicate]
    omega
  refine ⟨['0'], List.replicate ((-e).toNat - ds.length) '0' ++ ds, ?_, List.cons_ne_nil _ _, rfl,
    ?_, ?_, ?_⟩
  · simp only [Layout.positionalText, if_neg he, if_neg hplaces]
    rfl
  · exact List.append_ne_nil_of_right_ne_nil _ hne
  · rw [List.all_append, hall, all_isDigit_zeros]
    rfl
  · rw [hvalue, hlength]

theorem pointedText_positionalText (hne : ds ≠ []) (hall : ds.all Char.isDigit = true) (e : Int) :
    PointedText (Layout.pointed.positionalText ds e)
      (Binary64.ofDecimal false ⟨digitsValue ds, e⟩) := by
  by_cases he : 0 ≤ e
  · exact pointedText_of_nonneg hne hall he
  · by_cases hplaces : (-e).toNat < ds.length
    · exact pointedText_of_lt_length hall he hplaces
    · exact pointedText_of_length_le hne hall he hplaces

/-- A double is written as a numeral with a point, which stands for its magnitude. -/
theorem pointedText_magnitudeText (hx : x.isFinite = true) :
    PointedText (Layout.pointed.magnitudeText x) (x.withSign false) := by
  cases hzero : x.isZero with
  | true =>
    have htext := pointedText_positionalText (List.cons_ne_nil '0' []) rfl 0
    rw [Layout.magnitudeText, if_pos hzero, Binary64.withSign_of_isZero hzero]
    exact htext
  | false =>
    have htext := pointedText_positionalText Nat.toDigits_ne_nil
      (all_isDigit_toDigits (Binary64.shortest .up x).digits) (Binary64.shortest .up x).exponent
    have hzero : ¬x.isZero = true := by
      rw [hzero]
      exact Bool.false_ne_true
    rw [digitsValue_toDigits] at htext
    rw [Layout.magnitudeText, if_neg hzero, ← Binary64.ofDecimal_shortest .up hx]
    exact htext

theorem toList_write (layout : Layout) (hx : x.isFinite = true) :
    (layout.write x).toList =
      if x.isNegative then '-' :: layout.magnitudeText x else layout.magnitudeText x := by
  simp only [Layout.write, hx, if_true, String.toList_ofList]

theorem splitSign_write (layout : Layout) (hx : x.isFinite = true)
    (h : Numeral (layout.magnitudeText x)) :
    splitSign (layout.write x).toList = (x.isNegative, layout.magnitudeText x) := by
  rw [toList_write layout hx]
  cases x.isNegative with
  | true => rfl
  | false => exact splitSign_numeral h

theorem signedNumeral_write (layout : Layout) (hx : x.isFinite = true)
    (h : Numeral (layout.magnitudeText x)) : SignedNumeral (layout.write x).toList := by
  rw [toList_write layout hx]
  cases x.isNegative with
  | true => exact .minus h
  | false => exact .plain h

theorem PointedText.numeral (h : PointedText cs x) : Numeral cs := by
  obtain ⟨ws, ps, rfl, hws, hw, hps, hp, -⟩ := h
  exact .pointed hws hw hps hp

theorem ofNumeral?_of_pointedText (h : PointedText body (x.withSign false))
    (hsplit : splitSign cs = (x.isNegative, body)) : ofNumeral? cs = some (.number x) := by
  obtain ⟨ws, ps, rfl, hne, hw, -, hp, hvalue⟩ := h
  have hwhole : digits? (ws ++ '.' :: ps) = none := by
    apply digits?_eq_none
    rw [List.all_append, List.all_cons]
    exact Bool.and_false _
  have hall : (ws ++ ps).all Char.isDigit = true := by
    rw [List.all_append, hw, hp]
    rfl
  have hdecimal : decimal? (ws ++ '.' :: ps) = some ⟨digitsValue (ws ++ ps), -ps.length⟩ := by
    have happend : decimal? (ws ++ '.' :: ps ++ []) = _ :=
      decimal?_append hw (.inr ⟨ps, rfl, hp⟩) (by simp)
    rw [List.append_nil, List.drop_one, List.tail_cons,
      digits?_eq (List.append_ne_nil_of_left_ne_nil hne ps) hall] at happend
    rw [happend]
    simp only [exponent?, Option.bind_some, Option.map_some, Int.zero_sub]
  have hreal : Binary64.ofDecimal x.isNegative ⟨digitsValue (ws ++ ps), -ps.length⟩ = x := by
    rw [Binary64.ofDecimal_withSign, hvalue, Binary64.withSign_isNegative]
  simp only [ofNumeral?, hsplit, hwhole, Option.bind_none, binary64?, hdecimal, hreal,
    Option.map_some]

/-- A double is written as a numeral that stands for it. -/
theorem ofNumeral?_pointed (hx : x.isFinite = true) :
    ofNumeral? (Layout.pointed.write x).toList = some (.number x) := by
  have htext := pointedText_magnitudeText hx
  exact ofNumeral?_of_pointedText htext (splitSign_write .pointed hx htext.numeral)

theorem signedNumeral_pointed (hx : x.isFinite = true) :
    SignedNumeral (Layout.pointed.write x).toList :=
  signedNumeral_write .pointed hx (pointedText_magnitudeText hx).numeral

theorem numeral_pointed (hx : x.isFinite = true) (hsign : x.isNegative = false) :
    Numeral (Layout.pointed.write x).toList := by
  rw [toList_write .pointed hx, hsign]
  exact (pointedText_magnitudeText hx).numeral

end Literal
end FeatureFilter
