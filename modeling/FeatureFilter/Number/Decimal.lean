import FeatureFilter.Number.Binary64

namespace FeatureFilter.Number

/-- The number `digits * 10 ^ exponent`. -/
structure Decimal where
  digits : Nat
  exponent : Int
deriving DecidableEq, Repr

/-- How many decimal digits a number has; zero has none. -/
def digitCount (n : Nat) : Nat := if n = 0 then 0 else (Nat.toDigits 10 n).length

namespace Decimal

/-- Moves the zeros at the end of the digits into the exponent. `fuel` bounds their number. -/
def trim : Nat → Decimal → Decimal
  | 0, d => d
  | fuel + 1, d =>
    if d.digits ≠ 0 ∧ d.digits % 10 = 0 then trim fuel ⟨d.digits / 10, d.exponent + 1⟩ else d

/-- The number as a quotient of naturals. -/
def ratio (d : Decimal) : Nat × Nat :=
  if 0 ≤ d.exponent then (d.digits * Nat.pow 10 d.exponent.toNat, 1)
  else (d.digits, Nat.pow 10 (-d.exponent).toNat)

end Decimal

namespace Binary64

/-- The double nearest to a decimal. Beyond 10^310 every number is infinite and below 10^-330 it is
zero, so no larger power of ten is formed. -/
def ofDecimal (negative : Bool) (d : Decimal) : Binary64 :=
  let top := d.exponent + digitCount d.digits
  if d.digits = 0 ∨ top < -330 then zero negative
  else if 310 < top then .infinite negative
  else ofRatio negative d.ratio.1 d.ratio.2

/-- Which of two decimals is taken when a double lies in the middle between them. -/
inductive Tie where
  | up
  | even
deriving DecidableEq, Repr

/-- The least `k` with `num / den < 10 ^ k`. -/
def magnitude (num den : Nat) : Int :=
  if den ≤ num then digitCount (num / den)
  else 1 - digitCount ((den - 1) / num)

/-- The decimal with `places` digits next to a double that reads back as it, if there is one; of
two, the nearer. -/
def atPlaces (tie : Tie) (num den : Nat) (readsBack : Decimal → Bool) (places : Nat) :
    Option Decimal :=
  let exponent := magnitude num den - places
  let scaled : Nat × Nat :=
    if exponent ≤ 0 then (num * Nat.pow 10 (-exponent).toNat, den)
    else (num, den * Nat.pow 10 exponent.toNat)
  let below : Decimal := ⟨scaled.1 / scaled.2, exponent⟩
  let above : Decimal := ⟨scaled.1 / scaled.2 + 1, exponent⟩
  let twice := 2 * (scaled.1 % scaled.2)
  let upward := decide (scaled.2 < twice) || (twice == scaled.2 &&
    match tie with
    | .up => true
    | .even => below.digits % 2 == 1)
  match readsBack below, readsBack above with
  | true, true => some (if upward then above else below)
  | true, false => some below
  | false, true => some above
  | false, false => none

/-- The decimal with the fewest digits that reads back as the magnitude of a double. Seventeen
digits always suffice; the exact value stands behind them. -/
def shortest (tie : Tie) (x : Binary64) : Decimal :=
  let readsBack := fun d => ofDecimal false d == x.withSign false
  let found := ((List.range 17).map (· + 1)).findSome? (atPlaces tie x.units unitsPerOne readsBack)
  (found.getD ⟨x.units * Nat.pow 5 1074, -1074⟩).trim 1500

end Binary64
end FeatureFilter.Number
