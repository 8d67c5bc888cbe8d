namespace FeatureFilter.Number

/-- The mantissas and exponents of doubles: at most 53 bits, and all 53 unless the exponent is the
least one. The value is `mantissa * 2 ^ exponent` units. -/
def Canonical (mantissa exponent : Nat) : Prop :=
  mantissa < Nat.pow 2 53 ∧ exponent ≤ 2045 ∧ (exponent = 0 ∨ Nat.pow 2 52 ≤ mantissa)

instance (mantissa exponent : Nat) : Decidable (Canonical mantissa exponent) :=
  inferInstanceAs (Decidable (_ ∧ _ ∧ _))

/-- A double that is a number or an infinity. Zero has two signs. -/
inductive Binary64 where
  | finite (negative : Bool) (mantissa exponent : Nat) (canonical : Canonical mantissa exponent)
  | infinite (negative : Bool)
deriving DecidableEq

/-- The quotient rounded to the nearest natural number, a half to the even one. -/
def roundDiv (num den : Nat) : Nat :=
  let q := num / den
  let twice := 2 * (num % den)
  if twice < den then q else if den < twice then q + 1 else q + q % 2

namespace Binary64

/-- How many of the units make one. -/
def unitsPerOne : Nat := Nat.pow 2 1074

def zero (negative : Bool) : Binary64 := .finite negative 0 0 (by decide)

/-- The exponent at which a magnitude of that many units has 53 bits. -/
def exponentOf (units : Nat) : Nat := (units.log2 + 1) - 53

/-- The double nearest to `num / den`, a half to the even mantissa. What exceeds the largest double
by half a step or more is infinite. -/
def ofRatio (negative : Bool) (num den : Nat) : Binary64 :=
  let scaled := num * unitsPerOne
  let exponent := exponentOf (scaled / den)
  let mantissa := roundDiv scaled (den * Nat.pow 2 exponent)
  let carried :=
    if mantissa = Nat.pow 2 53 then (Nat.pow 2 52, exponent + 1) else (mantissa, exponent)
  if h : Canonical carried.1 carried.2 then .finite negative carried.1 carried.2 h
  else .infinite negative

/-- The double nearest to an integer. -/
def ofInt (n : Int) : Binary64 := ofRatio (decide (n < 0)) n.natAbs 1

def isNegative : Binary64 → Bool
  | .finite negative _ _ _ => negative
  | .infinite negative => negative

def isFinite : Binary64 → Bool
  | .finite .. => true
  | .infinite _ => false

/-- The magnitude in units; an infinity has none. -/
def units : Binary64 → Nat
  | .finite _ mantissa exponent _ => mantissa * Nat.pow 2 exponent
  | .infinite _ => 0

def isZero (x : Binary64) : Bool := x.isFinite && x.units == 0

/-- The same magnitude with the given sign. -/
def withSign (negative : Bool) : Binary64 → Binary64
  | .finite _ mantissa exponent h => .finite negative mantissa exponent h
  | .infinite _ => .infinite negative

/-- The product of two magnitudes, rounded to nearest. -/
def mulMagnitude (x y : Binary64) : Binary64 :=
  ofRatio false (x.units * y.units) (unitsPerOne * unitsPerOne)

/-- The quotient of two magnitudes, rounded to nearest. -/
def divMagnitude (x y : Binary64) : Binary64 := ofRatio false x.units y.units

end Binary64
end FeatureFilter.Number
