import Mathlib.Algebra.Group.Nat.Defs
import FeatureFilter.Number.Layout

namespace FeatureFilter.Number

theorem roundDiv_mul (hc : 0 < c) (num den : Nat) :
    roundDiv (num * c) (den * c) = roundDiv num den := by
  have htwice : 2 * (num % den * c) = 2 * (num % den) * c := (Nat.mul_assoc 2 _ c).symm
  simp only [roundDiv, Nat.mul_div_mul_right _ _ hc, Nat.mul_mod_mul_right, htwice,
    Nat.mul_lt_mul_right hc]

theorem roundDiv_mul_self (hc : 0 < c) (n : Nat) : roundDiv (n * c) c = n := by
  have h := roundDiv_mul hc n 1
  rw [Nat.one_mul] at h
  rw [h]
  simp [roundDiv, Nat.mod_one]

namespace Binary64

theorem ofRatio_mul (hc : 0 < c) (negative : Bool) (num den : Nat) :
    ofRatio negative (num * c) (den * c) = ofRatio negative num den := by
  have hscaled : num * c * unitsPerOne = num * unitsPerOne * c := Nat.mul_right_comm num c _
  have hden (k : Nat) : den * c * k = den * k * c := Nat.mul_right_comm den c k
  simp only [ofRatio, hscaled, hden, Nat.mul_div_mul_right _ _ hc, roundDiv_mul hc]

theorem ofRatio_withSign (negative : Bool) (num den : Nat) :
    ofRatio negative num den = (ofRatio false num den).withSign negative := by
  simp only [ofRatio]
  generalize (if roundDiv _ _ = Nat.pow 2 53 then _ else _ : Nat × Nat) = carried
  split <;> rfl

theorem exponentOf_units (h : Canonical mantissa exponent) :
    exponentOf (mantissa * 2 ^ exponent) = exponent := by
  obtain ⟨hlt, -, hfull⟩ := h
  have hlt : mantissa < 2 ^ 53 := hlt
  by_cases hm : mantissa = 0
  · subst hm
    obtain rfl : exponent = 0 := hfull.resolve_right (by decide)
    rfl
  · rcases hfull with rfl | hfull
    · have hlog := (Nat.log2_lt hm).2 hlt
      rw [Nat.pow_zero, Nat.mul_one, exponentOf]
      omega
    · have hfull : 2 ^ 52 ≤ mantissa := hfull
      have hne : mantissa * 2 ^ exponent ≠ 0 :=
        Nat.mul_ne_zero hm (Nat.pos_iff_ne_zero.1 (Nat.two_pow_pos exponent))
      have hlog : (mantissa * 2 ^ exponent).log2 = 52 + exponent := by
        refine (Nat.log2_eq_iff hne).2 ⟨?_, ?_⟩
        · rw [Nat.pow_add]
          exact Nat.mul_le_mul_right _ hfull
        · rw [Nat.add_right_comm, Nat.pow_add]
          exact Nat.mul_lt_mul_of_pos_right hlt (Nat.two_pow_pos exponent)
      rw [exponentOf, hlog]
      omega

theorem unitsPerOne_pos : 0 < unitsPerOne := by decide +kernel

/-- A double is nearest to its own value. -/
theorem ofRatio_units (negative : Bool) (h : Canonical mantissa exponent) :
    ofRatio negative (mantissa * 2 ^ exponent) unitsPerOne =
      .finite negative mantissa exponent h := by
  have hexponent : exponentOf (mantissa * 2 ^ exponent * unitsPerOne / unitsPerOne) = exponent := by
    rw [Nat.mul_div_cancel _ unitsPerOne_pos, exponentOf_units h]
  have hround : roundDiv (mantissa * 2 ^ exponent * unitsPerOne)
      (unitsPerOne * Nat.pow 2 exponent) = mantissa := by
    rw [Nat.pow_eq, Nat.mul_assoc, Nat.mul_comm (2 ^ exponent)]
    exact roundDiv_mul_self (Nat.mul_pos unitsPerOne_pos (Nat.two_pow_pos exponent)) mantissa
  have hcarry : mantissa ≠ Nat.pow 2 53 := Nat.ne_of_lt h.1
  simp only [ofRatio, hexponent, hround, if_neg hcarry, dif_pos h]

theorem digitCount_mul_pow (hm : m ≠ 0) (k : Nat) : digitCount (m * 10 ^ k) = digitCount m + k := by
  induction k with
  | zero => rw [Nat.pow_zero, Nat.mul_one, Nat.add_zero]
  | succ k ih =>
    have hpos : 0 < m * 10 ^ k := Nat.mul_pos (Nat.pos_of_ne_zero hm) (Nat.pow_pos (by decide))
    have hnext : m * 10 ^ (k + 1) = 10 * (m * 10 ^ k) + 0 := by
      rw [Nat.pow_succ, ← Nat.mul_assoc, Nat.mul_comm, Nat.add_zero]
    have hdigits := Nat.toDigits_append_toDigits (b := 10) (d := 0) (by decide) hpos (by decide)
    rw [digitCount, if_neg (Nat.ne_of_gt hpos)] at ih
    rw [hnext, digitCount, if_neg (by omega), ← hdigits, List.length_append, ih]
    rfl

/-- A power of ten may stand in the digits or in the exponent. -/
theorem ofDecimal_mul_pow (negative : Bool) (m k : Nat) (e : Int) :
    ofDecimal negative ⟨m * 10 ^ k, e⟩ = ofDecimal negative ⟨m, e + k⟩ := by
  have hten (n : Nat) : 0 < 10 ^ n := Nat.pow_pos (by decide)
  by_cases hm : m = 0
  · simp only [ofDecimal, hm, Nat.zero_mul, true_or, if_true]
  have hmk : m * 10 ^ k ≠ 0 := Nat.mul_ne_zero hm (Nat.ne_of_gt (hten k))
  have htop : e + digitCount (m * 10 ^ k) = e + k + digitCount m := by
    rw [digitCount_mul_pow hm]
    omega
  have hratio : ofRatio negative (Decimal.ratio ⟨m * 10 ^ k, e⟩).1
        (Decimal.ratio ⟨m * 10 ^ k, e⟩).2 =
      ofRatio negative (Decimal.ratio ⟨m, e + k⟩).1 (Decimal.ratio ⟨m, e + k⟩).2 := by
    by_cases he : 0 ≤ e
    · -- Both exponents are on the same side, and the numerators are equal.
      have hexp : (e + k).toNat = k + e.toNat := by omega
      simp only [Decimal.ratio, if_pos he, if_pos (show 0 ≤ e + k by omega), Nat.pow_eq, hexp,
        Nat.pow_add, Nat.mul_assoc]
    · by_cases hk : 0 ≤ e + k
      · -- The numerator keeps what of the power is left.
        have hexp : k = (e + k).toNat + (-e).toNat := by omega
        simp only [Decimal.ratio, if_neg he, if_pos hk, Nat.pow_eq]
        rw [← ofRatio_mul (hten (-e).toNat) negative (m * 10 ^ (e + k).toNat) 1, Nat.one_mul,
          Nat.mul_assoc, ← Nat.pow_add, ← hexp]
      · have hexp : (-e).toNat = (-(e + k)).toNat + k := by omega
        simp only [Decimal.ratio, if_neg he, if_neg hk, Nat.pow_eq]
        rw [hexp, Nat.pow_add, ofRatio_mul (hten k)]
  simp only [ofDecimal, hm, hmk, false_or, htop, hratio]

theorem ofDecimal_trim (negative : Bool) (n : Nat) (d : Decimal) :
    ofDecimal negative (d.trim n) = ofDecimal negative d := by
  induction n generalizing d with
  | zero => rfl
  | succ n ih =>
    rw [Decimal.trim]
    split
    · rename_i h
      have hdigits : d.digits = d.digits / 10 * 10 ^ 1 := by omega
      have hshift := ofDecimal_mul_pow negative (d.digits / 10) 1 d.exponent
      rw [← hdigits] at hshift
      exact (ih _).trans hshift.symm
    · rfl

theorem ofDecimal_withSign (negative : Bool) (d : Decimal) :
    ofDecimal negative d = (ofDecimal false d).withSign negative := by
  simp only [ofDecimal, ofRatio_withSign negative]
  split
  · rfl
  · split <;> rfl

theorem withSign_isNegative (x : Binary64) : (x.withSign false).withSign x.isNegative = x := by
  cases x <;> rfl

theorem withSign_of_isZero {x : Binary64} (h : x.isZero = true) (negative : Bool) :
    x.withSign negative = .zero negative := by
  cases x with
  | infinite => cases h
  | finite sign mantissa exponent canonical =>
    have hunits : mantissa * 2 ^ exponent = 0 := eq_of_beq h
    obtain rfl : mantissa = 0 :=
      (Nat.mul_eq_zero.1 hunits).resolve_right (Nat.ne_of_gt (Nat.two_pow_pos exponent))
    obtain rfl : exponent = 0 := canonical.2.2.resolve_right (by decide)
    rfl

theorem readsBack_of_atPlaces {readsBack : Decimal → Bool}
    (h : atPlaces tie num den readsBack places = some d) : readsBack d = true := by
  unfold atPlaces at h
  simp only at h
  split at h
  · rename_i hbelow habove
    cases h
    exact iteInduction (motive := fun d => readsBack d = true) (fun _ => habove) fun _ => hbelow
  · rename_i hbelow habove
    cases h
    exact hbelow
  · rename_i hbelow habove
    cases h
    exact habove
  · cases h

theorem digitCount_bounds (hlower : 10 ^ a ≤ n) (hupper : n < 10 ^ b) (hb : 0 < b) :
    a < digitCount n ∧ digitCount n ≤ b := by
  have hn : n ≠ 0 := Nat.ne_of_gt (Nat.lt_of_lt_of_le (Nat.pow_pos (by decide)) hlower)
  rw [digitCount, if_neg hn]
  constructor
  · apply Nat.lt_of_not_le
    intro hle
    cases a with
    | zero => exact absurd hle (Nat.not_le_of_lt Nat.length_toDigits_pos)
    | succ a =>
      have hlt := (Nat.length_toDigits_le_iff (by decide) (Nat.succ_pos a)).1 hle
      exact Nat.not_lt_of_le hlower hlt
  · exact (Nat.length_toDigits_le_iff (by decide) hb).2 hupper

theorem digitCount_exact (hm : mantissa ≠ 0) (h : Canonical mantissa exponent) (hk : k = 1074) :
    743 < digitCount (mantissa * 2 ^ exponent * 5 ^ k) ∧
      digitCount (mantissa * 2 ^ exponent * 5 ^ k) ≤ 1384 := by
  apply digitCount_bounds
  · have hpos : 0 < mantissa * 2 ^ exponent :=
      Nat.mul_pos (Nat.pos_of_ne_zero hm) (Nat.two_pow_pos exponent)
    have hbound : 10 ^ 743 ≤ 5 ^ k := by
      rw [hk]
      decide +kernel
    exact Nat.le_trans hbound (Nat.le_mul_of_pos_left _ hpos)
  · have hunits (l : Nat) (hl : exponent ≤ l) : mantissa * 2 ^ exponent ≤ 2 ^ 53 * 2 ^ l :=
      Nat.mul_le_mul (Nat.le_of_lt h.1) (Nat.pow_le_pow_right (by decide) hl)
    have hbound : 2 ^ 53 * 2 ^ 2045 * 5 ^ k < 10 ^ 1384 := by
      rw [hk]
      decide +kernel
    exact Nat.lt_of_le_of_lt (Nat.mul_le_mul_right _ (hunits 2045 h.2.1)) hbound
  · decide

/-- The exact value of a double reads back as the double. -/
theorem ofDecimal_exact {k : Nat} (h : Canonical mantissa exponent) (hk : k = 1074)
    (he : e = -(k : Int)) :
    ofDecimal false ⟨mantissa * Nat.pow 2 exponent * Nat.pow 5 k, e⟩ =
      .finite false mantissa exponent h := by
  simp only [Nat.pow_eq]
  by_cases hm : mantissa = 0
  · subst hm
    obtain rfl : exponent = 0 := h.2.2.resolve_right (by decide)
    simp only [ofDecimal, Nat.zero_mul, true_or, if_true]
    rfl
  · obtain ⟨hlower, hupper⟩ := digitCount_exact hm h hk
    have hdigits : mantissa * 2 ^ exponent * 5 ^ k ≠ 0 := by
      intro hzero
      rw [hzero] at hlower
      exact absurd hlower (by decide)
    have hunits : unitsPerOne = Nat.pow 2 k := by
      rw [hk]
      decide +kernel
    have hten : 10 ^ k = unitsPerOne * 5 ^ k := by rw [hunits, Nat.pow_eq, ← Nat.mul_pow]
    have hfive : 0 < 5 ^ k := Nat.pow_pos (by decide)
    have hexponent : ¬0 ≤ e := by omega
    have hplaces : (-e).toNat = k := by omega
    simp only [ofDecimal, hdigits, false_or, Decimal.ratio, if_neg hexponent, hplaces, Nat.pow_eq]
    rw [if_neg (by omega), if_neg (by omega), hten, ofRatio_mul hfive, ofRatio_units false h]

theorem ofDecimal_shortest (tie : Tie) (hx : x.isFinite = true) :
    ofDecimal false (shortest tie x) = x.withSign false := by
  cases x with
  | infinite => cases hx
  | finite negative mantissa exponent canonical =>
    simp only [shortest, ofDecimal_trim]
    generalize hfound : List.findSome? _ _ = found
    cases found with
    | none =>
      rw [Option.getD_none, units]
      -- As a variable the exponent keeps its power from being written out.
      generalize hk : (1074 : Nat) = k
      exact ofDecimal_exact canonical hk.symm (by omega)
    | some d =>
      obtain ⟨l₁, places, l₂, -, hplaces, -⟩ := List.findSome?_eq_some_iff.1 hfound
      exact eq_of_beq (readsBack_of_atPlaces hplaces)

end Binary64
end FeatureFilter.Number
