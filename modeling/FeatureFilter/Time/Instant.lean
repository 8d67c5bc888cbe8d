import FeatureFilter.Time.Date

namespace FeatureFilter.Time

/-- Seconds in a day. -/
def daySeconds : Nat := 86400

/-- Nanoseconds in a second. -/
def secondNanos : Nat := 1000000000

/-- The seconds of a day and the nanoseconds into them. Leap seconds end a minute. -/
def IsTime (second nanos : Nat) : Prop :=
  second < daySeconds ∧ nanos < 2 * secondNanos ∧ (nanos < secondNanos ∨ second % 60 = 59)

instance (second nanos : Nat) : Decidable (IsTime second nanos) :=
  inferInstanceAs (Decidable (_ ∧ _ ∧ _))

/-- A date in universal time, the second of that day and the nanoseconds into it. -/
structure Instant where
  date : Date
  second : Nat
  nanos : Nat
  valid : IsTime second nanos
deriving DecidableEq

/-- A point, at least one digit, and the nanoseconds that the first nine digits stand for. -/
def readFraction (cs : List Char) : Option (Nat × List Char) :=
  match cs with
  | '.' :: rest => do
    let (ds, rest) ← readDigits 1 rest.length rest
    let kept := ds.take 9
    some (digitsValue kept * Nat.pow 10 (9 - kept.length), rest)
  | _ => some (0, cs)

/-- A distance from universal time in seconds: two digits for the hours and two for the minutes,
with what `colon` passes over between them. -/
def readDistance (colon : List Char → Option (List Char)) (cs : List Char) :
    Option (Nat × List Char) := do
  let (hours, cs) ← readNumber 2 2 cs
  let cs ← colon cs
  let (minutes, cs) ← readNumber 2 2 cs
  let total := 3600 * hours + 60 * minutes
  if minutes < 60 ∧ total < daySeconds then some (total, cs) else none

/-- The offset from universal time in seconds: `Z`, or a sign and a distance. -/
def readOffset (colon : List Char → Option (List Char)) (cs : List Char) :
    Option (Int × List Char) :=
  let distance := readDistance colon
  match cs with
  | 'Z' :: rest => some (0, rest)
  | 'z' :: rest => some (0, rest)
  | '+' :: rest => (distance rest).map fun (n, rest) => ((n : Int), rest)
  | '-' :: rest => (distance rest).map fun (n, rest) => (-(n : Int), rest)
  | '−' :: rest => (distance rest).map fun (n, rest) => (-(n : Int), rest)
  | _ => none

/-- The letters `UTC`, large or small, or an offset in which colons and white space may stand behind
the hours. -/
def readLooseOffset (cs : List Char) : Option (Int × List Char) :=
  if (cs.take 3).map Char.toUpper = ['U', 'T', 'C'] then some (0, cs.drop 3)
  else readOffset (fun cs => some (cs.dropWhile fun c => c == ':' || Text.isSpace c)) cs

/-- The text behind the mark between a date and a time of day. -/
def expectMark (cs : List Char) : Option (List Char) :=
  (expect 'T' cs).or ((expect 't' cs).or (expect ' ' cs))

namespace Instant

/-- The instant at a second counted from the start of a date, one day around it. -/
def of? (date : Date) (second : Int) (nanos : Nat) : Option Instant := do
  let day ←
    if second < 0 then date.prev? else if second < daySeconds then some date else date.next?
  let within := (second % daySeconds).toNat
  if h : IsTime within nanos then some ⟨day, within, nanos, h⟩ else none

/-- The instant that a date, a time of day and an offset name. Second 60 is a leap second. -/
def ofParts? (date : Date) (hour minute second fraction : Nat) (offset : Int) : Option Instant :=
  if hour < 24 ∧ minute < 60 ∧ second ≤ 60 then
    let nanos := if second = 60 then fraction + secondNanos else fraction
    of? date (3600 * hour + 60 * minute + min second 59 - offset) nanos
  else none

/-- Reads a date and a time of day with its offset, all numbers with their full digits. -/
def read? (cs : List Char) : Option Instant := do
  let (year, cs) ← readNumber 4 4 cs
  let cs ← expect '-' cs
  let (month, cs) ← readNumber 2 2 cs
  let cs ← expect '-' cs
  let (day, cs) ← readNumber 2 2 cs
  let date ← Date.of? year month day
  let cs ← expectMark cs
  let (hour, cs) ← readNumber 2 2 cs
  let cs ← expect ':' cs
  let (minute, cs) ← readNumber 2 2 cs
  let cs ← expect ':' cs
  let (second, cs) ← readNumber 2 2 cs
  let (fraction, cs) ← readFraction cs
  let (offset, cs) ← readOffset (expect ':') cs
  if cs.isEmpty then ofParts? date hour minute second fraction offset else none

/-- Reads an instant in a looser form: numbers of one or two digits, a year that may have a sign,
white space between the parts and behind them, and `UTC` for the offset. -/
def readLoose? (cs : List Char) : Option Instant := do
  let (date, cs) ← Date.readFront skipSpace cs
  let cs ← expectMark cs
  let (hour, cs) ← readNumber 1 2 (skipSpace cs)
  let cs ← expect ':' (skipSpace cs)
  let (minute, cs) ← readNumber 1 2 (skipSpace cs)
  let cs ← expect ':' (skipSpace cs)
  let (second, cs) ← readNumber 1 2 (skipSpace cs)
  let (fraction, cs) ← readFraction cs
  let (offset, cs) ← readLooseOffset (skipSpace cs)
  if (skipSpace cs).isEmpty then ofParts? date hour minute second fraction offset else none

/-- The nanoseconds with three, six or nine digits, or none where they are zero. -/
def writeFraction (nanos : Nat) : List Char :=
  if nanos = 0 then []
  else if nanos % 1000000 = 0 then '.' :: padded 3 (nanos / 1000000)
  else if nanos % 1000 = 0 then '.' :: padded 6 (nanos / 1000)
  else '.' :: padded 9 nanos

def write (t : Instant) : List Char :=
  let leap := secondNanos ≤ t.nanos
  let second := t.second % 60 + (if leap then 1 else 0)
  t.date.write ++ 'T' :: padded 2 (t.second / 3600) ++ ':' :: padded 2 (t.second / 60 % 60) ++
    ':' :: padded 2 second ++ writeFraction (t.nanos % secondNanos) ++ ['Z']

def ofString? (s : String) : Option Instant := read? s.toList

instance : ToString Instant := ⟨fun t => .ofList t.write⟩

end Instant
end FeatureFilter.Time
