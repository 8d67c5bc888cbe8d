import FeatureFilter.Filter.OfText
import FeatureFilter.Proofs.Filter.Numerals

namespace FeatureFilter

open Grammar
open Time (digitsValue)

/-- Digits, perhaps with a point among them or at either end. -/
inductive Mantissa : List Char → Prop
  | whole : ws ≠ [] → ws.all Char.isDigit = true → Mantissa ws
  | pointed : ws.all Char.isDigit = true → ps.all Char.isDigit = true → ws ++ ps ≠ [] →
    Mantissa (ws ++ '.' :: ps)

def IsSign (s : List Char) : Prop := s = [] ∨ s = ['+'] ∨ s = ['-']

inductive UnsignedText : List Char → Prop
  | plain : Mantissa ms → UnsignedText ms
  | scaled : Mantissa ms → e = 'e' ∨ e = 'E' → IsSign s → ds ≠ [] →
    ds.all Char.isDigit = true → UnsignedText (ms ++ e :: (s ++ ds))

def NumberText (w : List Char) : Prop := ∃ s ms, w = s ++ ms ∧ IsSign s ∧ UnsignedText ms

namespace Grammar.Pattern

theorem eq_of_toLower_eq_e (h : c.toLower = 'e') : c = 'e' ∨ c = 'E' := by
  cases hc : c.isUpper with
  | false =>
    rw [toLower_of_not_isUpper hc] at h
    exact .inl h
  | true =>
    have hnat := toNat_toLower_of_isUpper hc
    rw [h, show 'e'.toNat = 69 + 32 from rfl] at hnat
    exact .inr (Char.toNat_inj.1 (Nat.add_right_cancel hnat).symm)

theorem all_isDigit_of_scan_many (h : (many (one .digit)).scan cs = some (taken, rest)) :
    taken.all Char.isDigit = true := by
  rw [(Single.one .digit).scan_many] at h
  cases h
  exact List.all_takeWhile

theorem digits_of_scan (h : digits.scan cs = some (taken, rest)) :
    taken ≠ [] ∧ taken.all Char.isDigit = true := by
  obtain ⟨first, mid, more, hfirst, hmore, rfl⟩ := exists_of_scan_seq h
  cases cs with
  | nil => cases hfirst
  | cons c cs =>
    rw [(Single.one .digit).cons] at hfirst
    cases hc : CharClass.digit.has c with
    | false =>
      rw [hc] at hfirst
      cases hfirst
    | true =>
      rw [hc] at hfirst
      cases hfirst
      exact ⟨List.cons_ne_nil _ _, Bool.and_eq_true_iff.2 ⟨hc, all_isDigit_of_scan_many hmore⟩⟩

theorem isSign_of_scan (h : (optional sign).scan cs = some (taken, rest)) : IsSign taken := by
  rcases cases_of_scan_optional h with rfl | h
  · exact .inl rfl
  · obtain ⟨p, hp, hs⟩ := exists_of_scan_anyOf h
    simp only [List.mem_cons, List.not_mem_nil, or_false] at hp
    rcases hp with rfl | rfl
    · exact .inr (.inl (scan_text_iff.1 hs).1)
    · exact .inr (.inr (scan_text_iff.1 hs).1)

theorem mantissa_of_scan
    (h : (anyOf [.seq digits (.optional (.seq (str ".") (.many (.one .digit)))),
      .seq (str ".") digits]).scan cs = some (taken, rest)) : Mantissa taken := by
  obtain ⟨p, hp, hs⟩ := exists_of_scan_anyOf h
  simp only [List.mem_cons, List.not_mem_nil, or_false] at hp
  rcases hp with rfl | rfl
  · obtain ⟨ws, mid, places, hws, hplaces, rfl⟩ := exists_of_scan_seq hs
    obtain ⟨hne, hdigits⟩ := digits_of_scan hws
    rcases cases_of_scan_optional hplaces with rfl | hplaces
    · rw [List.append_nil]
      exact .whole hne hdigits
    · obtain ⟨point, mid', ps, hpoint, hps, rfl⟩ := exists_of_scan_seq hplaces
      cases (scan_text_iff.1 hpoint).1
      exact .pointed hdigits (all_isDigit_of_scan_many hps)
        (List.append_ne_nil_of_left_ne_nil hne _)
  · obtain ⟨point, mid, ps, hpoint, hps, rfl⟩ := exists_of_scan_seq hs
    obtain ⟨hne, hdigits⟩ := digits_of_scan hps
    cases (scan_text_iff.1 hpoint).1
    have hpointed : Mantissa ([] ++ '.' :: ps) := .pointed rfl hdigits hne
    exact hpointed

theorem unsignedText_of_scan (h : number.scan cs = some (taken, rest)) : UnsignedText taken := by
  obtain ⟨ms, mid, exponent, hmantissa, hexponent, rfl⟩ := exists_of_scan_seq h
  have hms := mantissa_of_scan hmantissa
  rcases cases_of_scan_optional hexponent with rfl | hexponent
  · rw [List.append_nil]
    exact .plain hms
  · obtain ⟨mark, mid', more, hmark, hmore, rfl⟩ := exists_of_scan_seq hexponent
    obtain ⟨s, mid'', ds, hs, hds, rfl⟩ := exists_of_scan_seq hmore
    obtain ⟨e, rfl, he⟩ := List.map_eq_singleton_iff.1 (scan_anyCase_iff.1 hmark).1
    obtain ⟨hne, hdigits⟩ := digits_of_scan hds
    exact .scaled (s := s) hms (eq_of_toLower_eq_e he) (isSign_of_scan hs) hne hdigits

theorem numberText_of_scan (h : number.scan cs = some (taken, rest)) : NumberText taken :=
  ⟨[], taken, rfl, .inl rfl, unsignedText_of_scan h⟩

theorem numberText_of_scan_signed
    (h : (seq (.optional sign) number).scan cs = some (taken, rest)) : NumberText taken := by
  obtain ⟨s, mid, ms, hs, hms, rfl⟩ := exists_of_scan_seq h
  exact ⟨s, ms, rfl, isSign_of_scan hs, unsignedText_of_scan hms⟩

end Grammar.Pattern

theorem splitSign_append (hs : IsSign s) (hbody : ∀ c ∈ body.head?, c ≠ '-' ∧ c ≠ '+') :
    splitSign (s ++ body) = (s == ['-'], body) := by
  rcases hs with rfl | rfl | rfl
  · cases body with
    | nil => rfl
    | cons c cs =>
      obtain ⟨hminus, hplus⟩ := hbody c rfl
      exact splitSign_of_ne hminus hplus cs
  · rfl
  · rfl

theorem not_sign_of_all_isDigit {ds : List Char} (hall : ds.all Char.isDigit = true) :
    ∀ c ∈ ds.head?, c ≠ '-' ∧ c ≠ '+' := fun c hc =>
  not_sign_of_isDigit (List.all_eq_true.1 hall c (List.mem_of_mem_head? hc))

theorem exists_exponent? (e : Char) (hs : IsSign s) (hne : ds ≠ [])
    (hall : ds.all Char.isDigit = true) : ∃ n, exponent? (e :: (s ++ ds)) = some n := by
  simp only [exponent?, splitSign_append hs (not_sign_of_all_isDigit hall), digits?_eq hne hall]
  exact ⟨_, rfl⟩

namespace Mantissa

/-- A mantissa has a value and places behind the point, whatever exponent follows it. -/
theorem exists_decimal?_append (h : Mantissa ms) : ∃ n places : Nat, ∀ xs,
    (∀ x ∈ xs.head?, x = 'e' ∨ x = 'E') →
      decimal? (ms ++ xs) = (exponent? xs).map fun exponent => ⟨n, exponent - places⟩ := by
  cases h with
  | whole hne hall =>
    refine ⟨digitsValue ms, 0, fun xs hxs => ?_⟩
    have happend := decimal?_append hall (.inl rfl) hxs
    rw [List.append_nil, List.drop_nil, List.append_nil, digits?_eq hne hall] at happend
    exact happend
  | @pointed ws ps hws hps hne =>
    refine ⟨digitsValue (ws ++ ps), ps.length, fun xs hxs => ?_⟩
    have hall : (ws ++ ps).all Char.isDigit = true := by
      rw [List.all_append, hws, hps]
      rfl
    have happend := decimal?_append hws (.inr ⟨ps, rfl, hps⟩) hxs
    rw [List.drop_one, List.tail_cons, digits?_eq hne hall] at happend
    exact happend

theorem exists_head (h : Mantissa ms) : ∃ c cs, ms = c :: cs ∧ c ≠ '-' ∧ c ≠ '+' := by
  cases h with
  | whole hne hall =>
    cases ms with
    | nil => exact absurd rfl hne
    | cons c cs => exact ⟨c, cs, rfl, not_sign_of_isDigit (Bool.and_eq_true_iff.1 hall).1⟩
  | @pointed ws ps hws =>
    cases ws with
    | nil => exact ⟨'.', ps, rfl, by decide, by decide⟩
    | cons c cs => exact ⟨c, _, rfl, not_sign_of_isDigit (Bool.and_eq_true_iff.1 hws).1⟩

end Mantissa

namespace UnsignedText

theorem exists_decimal? (h : UnsignedText cs) : ∃ d, decimal? cs = some d := by
  cases h with
  | plain hms =>
    obtain ⟨n, places, happend⟩ := hms.exists_decimal?_append
    have hplain := happend [] (by simp)
    rw [List.append_nil] at hplain
    exact ⟨_, hplain⟩
  | @scaled ms e s ds hms he hs hne hall =>
    obtain ⟨n, places, happend⟩ := hms.exists_decimal?_append
    obtain ⟨exponent, hexponent⟩ := exists_exponent? e hs hne hall
    have hscaled := happend (e :: (s ++ ds)) (by simpa using he)
    rw [hexponent] at hscaled
    exact ⟨_, hscaled⟩

theorem not_sign (h : UnsignedText cs) : ∀ c ∈ cs.head?, c ≠ '-' ∧ c ≠ '+' := by
  cases h with
  | plain hms | scaled hms =>
    obtain ⟨c, cs, rfl, hc⟩ := hms.exists_head
    intro c' hc'
    cases hc'
    exact hc

end UnsignedText

namespace Literal

/-- Every number that the grammar takes is read. -/
theorem exists_ofNumeral? (h : NumberText w) : ∃ l, ofNumeral? w = some l := by
  obtain ⟨s, body, rfl, hs, hbody⟩ := h
  have hsplit := splitSign_append hs hbody.not_sign
  obtain ⟨d, hd⟩ := hbody.exists_decimal?
  cases hn : (digits? body).bind fun n =>
      int64? (if s == ['-'] then -(n : Int) else n) with
  | some n =>
    refine ⟨.integer n, ?_⟩
    simp only [ofNumeral?, hsplit, hn]
  | none =>
    refine ⟨.number (.ofDecimal (s == ['-']) d), ?_⟩
    simp only [ofNumeral?, hsplit, hn, binary64?, hd, Option.map_some]

theorem eq_of_ofNumeral? (h : ofNumeral? w = some l) :
    (∃ n, l = .integer n) ∨ ∃ x, l = .number x := by
  cases hsplit : splitSign w with
  | mk negative body =>
    simp only [ofNumeral?, hsplit] at h
    cases hn : (digits? body).bind fun n => int64? (if negative then -(n : Int) else n) with
    | some n =>
      rw [hn] at h
      exact .inl ⟨n, (Option.some.inj h).symm⟩
    | none =>
      rw [hn] at h
      obtain ⟨x, -, rfl⟩ := Option.map_eq_some_iff.1 h
      exact .inr ⟨x, rfl⟩

end Literal

namespace OfText

theorem numeral_eq (h : Literal.ofNumeral? cs = some l) (s : Text.Span) : numeral s cs = .ok l := by
  rw [numeral, h]
  rfl

theorem expr_numeral (hr : r = .numberLiteral ∨ r = .signedNumber)
    (h : Literal.ofNumeral? cs = some l) (s : Text.Span) :
    expr (.token r s cs) = .ok (.literal s l) := by
  rcases hr with rfl | rfl
  · rw [expr, tokenExpr, numeral_eq h]
    rfl
  · rw [expr, tokenExpr, numeral_eq h]
    rfl

theorem ordinate_token (h : Literal.ofNumeral? cs = some l) (hx : l.toBinary64? = some x)
    (r : Rule) (s s' : Text.Span) : ordinate s (.token r s' cs) = .ok x := by
  rw [ordinate, numeral_eq h]
  show orFail s .invalidCoordinate l.toBinary64? = _
  rw [hx]
  rfl

theorem coordinate_node (h : ts.mapM (ordinate s) = .ok os)
    (hc : Coordinate.ofOrdinates? os = some c) :
    coordinate (.node .coordinate s ts) = .ok c := by
  rw [coordinate, h]
  show orFail s _ (Coordinate.ofOrdinates? os) = _
  rw [hc]
  rfl

end OfText
end FeatureFilter
