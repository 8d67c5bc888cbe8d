import FeatureFilter.Text.Blank

namespace FeatureFilter.Time

/-- A year that has a 29th of February. -/
def isLeap (year : Int) : Bool := year % 4 == 0 && (year % 100 != 0 || year % 400 == 0)

def daysIn (year : Int) (month : Nat) : Nat :=
  if month = 2 then if isLeap year then 29 else 28
  else if month = 4 ∨ month = 6 ∨ month = 9 ∨ month = 11 then 30
  else 31

/-- The years, months and days that name a date. -/
def IsDate (year : Int) (month day : Nat) : Prop :=
  (-262143 ≤ year ∧ year ≤ 262142) ∧ (1 ≤ month ∧ month ≤ 12) ∧ 1 ≤ day ∧ day ≤ daysIn year month

instance (year : Int) (month day : Nat) : Decidable (IsDate year month day) :=
  inferInstanceAs (Decidable ((_ ∧ _) ∧ (_ ∧ _) ∧ _ ∧ _))

structure Date where
  year : Int
  month : Nat
  day : Nat
  valid : IsDate year month day
deriving DecidableEq

/-- A number in decimal, filled with zeros on the left. -/
def padded (width n : Nat) : List Char :=
  let digits := Nat.toDigits 10 n
  List.replicate (width - digits.length) '0' ++ digits

def digitsValue (ds : List Char) : Nat := ds.foldl (fun n d => 10 * n + (d.toNat - '0'.toNat)) 0

/-- Between `least` and `most` digits at the front of a text, as many as there are. -/
def readDigits (least most : Nat) (cs : List Char) : Option (List Char × List Char) :=
  let ds := (cs.take most).takeWhile Char.isDigit
  if least ≤ ds.length then some (ds, cs.drop ds.length) else none

def readNumber (least most : Nat) (cs : List Char) : Option (Nat × List Char) :=
  (readDigits least most cs).map fun (ds, rest) => (digitsValue ds, rest)

/-- The text behind an expected character. -/
def expect (c : Char) : List Char → Option (List Char)
  | d :: cs => if c = d then some cs else none
  | [] => none

def skipSpace (cs : List Char) : List Char := cs.dropWhile Text.isSpace

/-- Four digits, with a sign and perhaps more digits outside the years 0 to 9999. -/
def writeYear (year : Int) : List Char :=
  if 0 ≤ year ∧ year ≤ 9999 then padded 4 year.natAbs
  else (if year < 0 then '-' else '+') :: padded 4 year.natAbs

/-- A year of one to four digits, or one with a sign and any number of digits. -/
def readYear (cs : List Char) : Option (Int × List Char) :=
  match cs with
  | '-' :: rest => (readNumber 1 rest.length rest).map fun (n, rest) => (-(n : Int), rest)
  | '+' :: rest => (readNumber 1 rest.length rest).map fun (n, rest) => ((n : Int), rest)
  | _ => (readNumber 1 4 cs).map fun (n, rest) => ((n : Int), rest)

namespace Date

def of? (year : Int) (month day : Nat) : Option Date :=
  if h : IsDate year month day then some ⟨year, month, day, h⟩ else none

/-- The date one day later, if there is one. -/
def next? (d : Date) : Option Date :=
  if d.day < daysIn d.year d.month then of? d.year d.month (d.day + 1)
  else if d.month < 12 then of? d.year (d.month + 1) 1
  else of? (d.year + 1) 1 1

/-- The date one day earlier, if there is one. -/
def prev? (d : Date) : Option Date :=
  if 1 < d.day then of? d.year d.month (d.day - 1)
  else if 1 < d.month then of? d.year (d.month - 1) (daysIn d.year (d.month - 1))
  else of? (d.year - 1) 12 31

def write (d : Date) : List Char :=
  writeYear d.year ++ '-' :: padded 2 d.month ++ '-' :: padded 2 d.day

/-- Reads a year, a month and a day of one or two digits with hyphens between them, and gives what
follows. White space may stand in front of each number; `gap` passes over what may stand in front of
a hyphen. -/
def readFront (gap : List Char → List Char) (cs : List Char) : Option (Date × List Char) := do
  let (year, cs) ← readYear (skipSpace cs)
  let cs ← expect '-' (gap cs)
  let (month, cs) ← readNumber 1 2 (skipSpace cs)
  let cs ← expect '-' (gap cs)
  let (day, cs) ← readNumber 1 2 (skipSpace cs)
  some (← of? year month day, cs)

/-- Reads a date that is the whole text, its hyphens right behind the numbers. -/
def read? (cs : List Char) : Option Date := do
  let (date, cs) ← readFront id cs
  if cs.isEmpty then some date else none

/-- Reads a date with white space anywhere between its parts and behind it. -/
def readLoose? (cs : List Char) : Option Date := do
  let (date, cs) ← readFront skipSpace cs
  if (skipSpace cs).isEmpty then some date else none

def ofString? (s : String) : Option Date := read? s.toList

instance : ToString Date := ⟨fun d => .ofList d.write⟩

end Date
end FeatureFilter.Time
