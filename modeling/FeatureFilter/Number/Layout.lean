import FeatureFilter.Number.Decimal

namespace FeatureFilter.Number

open Binary64

/-- The decisions of a number format: where a double in the middle between two decimals goes, which
numbers are written without an exponent, and whether a whole number ends in a point and a zero. -/
structure Layout where
  tie : Tie
  /-- Whether a number is positional when its first digit stands for `10 ^ e`. -/
  positional : Int → Bool
  pointZero : Bool

namespace Layout

/-- No exponent ever, and no point in a whole number. -/
def plain : Layout where
  tie := .up
  positional _ := true
  pointZero := false

/-- The digits with a point in them or zeros around them. -/
def positionalText (layout : Layout) (digits : List Char) (exponent : Int) : List Char :=
  if 0 ≤ exponent then
    digits ++ List.replicate exponent.toNat '0' ++ (if layout.pointZero then ['.', '0'] else [])
  else
    let places := (-exponent).toNat
    if places < digits.length then
      digits.take (digits.length - places) ++ '.' :: digits.drop (digits.length - places)
    else
      '0' :: '.' :: List.replicate (places - digits.length) '0' ++ digits

/-- One digit, the others behind a point, and the signed exponent. -/
def scientificText (digits : List Char) (leading : Int) : List Char :=
  digits.take 1 ++ (if 1 < digits.length then '.' :: digits.drop 1 else []) ++
    'e' :: (if leading < 0 then '-' else '+') :: Nat.toDigits 10 leading.natAbs

/-- The written form of a magnitude that is not infinite. -/
def magnitudeText (layout : Layout) (x : Binary64) : List Char :=
  if x.isZero then positionalText layout ['0'] 0
  else
    let d := shortest layout.tie x
    let digits := Nat.toDigits 10 d.digits
    let leading := d.exponent + digits.length - 1
    if layout.positional leading then positionalText layout digits d.exponent
    else scientificText digits leading

/-- The written form of a double. -/
def write (layout : Layout) (x : Binary64) : String :=
  let body := if x.isFinite then magnitudeText layout x else "inf".toList
  .ofList (if x.isNegative then '-' :: body else body)

end Layout
end FeatureFilter.Number
