import FeatureFilter.Json.Fault

namespace FeatureFilter.Json

open Number (Binary64)

def isBlank (c : Char) : Bool := c == ' ' || c == '\n' || c == '\t' || c == '\r'

def skipBlanks (cs : List Char) : List Char := cs.dropWhile isBlank

/-- The rest of a word whose first letter has been read. -/
def word : List Char → List Char → Except Fault (List Char)
  | [], cs => .ok cs
  | _ :: _, [] => .error (.consumed .endInValue [])
  | w :: ws, c :: cs => if c = w then word ws cs else .error ⟨.expectedWord, c :: cs, 1⟩

/-- A digit more would exceed `bound`. -/
def overflows (n digit bound : Nat) : Bool := decide (bound < 10 * n + digit)

def largestNatural : Nat := Nat.pow 2 64 - 1

/-- A power of ten as the nearest double. -/
def powerOfTen (n : Nat) : Binary64 := .ofRatio false (Nat.pow 10 n) 1

/-- Divides by 10^308 until at most 308 decimal places are left. `fuel` bounds the steps: the third
one meets zero. -/
def scaleDown : Nat → Binary64 → Nat → Binary64
  | 0, f, _ => f
  | fuel + 1, f, down =>
    if down ≤ 308 then f.divMagnitude (powerOfTen down)
    else if f.isZero then f
    else scaleDown fuel (f.divMagnitude (powerOfTen 308)) (down - 308)

/-- The number `significand * 10 ^ exponent`, scaled in double precision. -/
def scale (negative : Bool) (significand : Nat) (exponent : Int) (rest : List Char) :
    Except Fault Binary64 :=
  let f := Binary64.ofRatio false significand 1
  let outOfRange := .error (.consumed .numberOutOfRange rest)
  if exponent < 0 then .ok ((scaleDown 4 f exponent.natAbs).withSign negative)
  else if exponent ≤ 308 then
    let product := f.mulMagnitude (powerOfTen exponent.natAbs)
    if product.isFinite then .ok (product.withSign negative) else outOfRange
  else if f.isZero then .ok (f.withSign negative)
  else outOfRange

/-- The largest exponent that is kept. -/
def largestExponent : Nat := Nat.pow 2 31 - 1

/-- The digits of an exponent behind the first, or nothing if it grows too large. -/
def exponentDigits : Nat → List Char → Option Nat × List Char
  | n, [] => (some n, [])
  | n, c :: cs =>
    if c.isDigit then
      let digit := c.toNat - '0'.toNat
      if overflows n digit largestExponent then (none, cs.dropWhile Char.isDigit)
      else exponentDigits (10 * n + digit) cs
    else (some n, c :: cs)

/-- The text behind the digit that made an exponent too large. -/
def exponentOverflowRest : Nat → List Char → List Char
  | _, [] => []
  | n, c :: cs =>
    if c.isDigit then
      let digit := c.toNat - '0'.toNat
      if overflows n digit largestExponent then cs else exponentOverflowRest (10 * n + digit) cs
    else c :: cs

/-- Reads an exponent behind its mark and scales. -/
def exponent (negative : Bool) (significand : Nat) (start : Int) (cs : List Char) :
    Except Fault (Binary64 × List Char) :=
  let (down, cs) : Bool × List Char :=
    match cs with
    | '+' :: cs => (false, cs)
    | '-' :: cs => (true, cs)
    | cs => (false, cs)
  match cs with
  | [] => .error (.consumed .endInValue [])
  | c :: rest =>
    if c.isDigit then
      let first := c.toNat - '0'.toNat
      match exponentDigits first rest with
      | (some n, rest) => do
        let n : Int := if down then -(n : Int) else n
        let f ← scale negative significand (start + n) rest
        .ok (f, rest)
      | (none, behind) =>
        if significand ≠ 0 ∧ !down then
          .error (.consumed .numberOutOfRange (exponentOverflowRest first rest))
        else .ok (.zero negative, behind)
    else .error ⟨.invalidNumber, c :: rest, 1⟩

/-- Ends a number whose digits have been read: an exponent may follow. -/
def scaled (negative : Bool) (significand : Nat) (start : Int) (cs : List Char) :
    Except Fault (Binary64 × List Char) :=
  match cs with
  | 'e' :: rest => exponent negative significand start rest
  | 'E' :: rest => exponent negative significand start rest
  | _ => do
    let f ← scale negative significand start cs
    .ok (f, cs)

/-- Digits behind the point: those that fit join the significand, the others are dropped. Gives the
significand, how many digits joined, whether some were dropped, and the rest. -/
def fractionDigits : Nat → Nat → List Char → Nat × Nat × Bool × List Char
  | n, count, [] => (n, count, false, [])
  | n, count, c :: cs =>
    if c.isDigit then
      let digit := c.toNat - '0'.toNat
      if overflows n digit largestNatural then (n, count, true, cs.dropWhile Char.isDigit)
      else fractionDigits (10 * n + digit) (count + 1) cs
    else (n, count, false, c :: cs)

/-- Reads a fraction behind its point. -/
def fraction (negative : Bool) (significand : Nat) (start : Int) (cs : List Char) :
    Except Fault (Binary64 × List Char) :=
  match fractionDigits significand 0 cs with
  | (_, 0, false, []) => .error (.peeked .endInValue [])
  | (_, 0, false, rest) => .error (.peeked .invalidNumber rest)
  | (n, count, _, rest) => scaled negative n (start - count) rest

/-- The digits of an integer behind the first: those that fit, and how many follow them. -/
def integerDigits : Nat → List Char → Nat × Nat × List Char
  | n, [] => (n, 0, [])
  | n, c :: cs =>
    if c.isDigit then
      let digit := c.toNat - '0'.toNat
      if overflows n digit largestNatural then
        (n, ((c :: cs).takeWhile Char.isDigit).length, cs.dropWhile Char.isDigit)
      else integerDigits (10 * n + digit) cs
    else (n, 0, c :: cs)

/-- A number of which the integer part has been read, `dropped` of its digits not kept. -/
def numberTail (negative : Bool) (significand dropped : Nat) (cs : List Char) :
    Except Fault (Json × List Char) :=
  let float := fun (r : Except Fault (Binary64 × List Char)) =>
    r.map fun (f, rest) => (Json.float f, rest)
  match cs with
  | '.' :: rest => float (fraction negative significand dropped rest)
  | 'e' :: _ => float (scaled negative significand dropped cs)
  | 'E' :: _ => float (scaled negative significand dropped cs)
  | _ =>
    if dropped ≠ 0 then float (scaled negative significand dropped cs)
    else if !negative then .ok (.integer significand, cs)
    else if significand = 0 ∨ Nat.pow 2 63 < significand then
      .ok (.float (.ofRatio true significand 1), cs)
    else .ok (.integer (-(significand : Int)), cs)

/-- Reads a number behind its sign. -/
def number (negative : Bool) (cs : List Char) : Except Fault (Json × List Char) :=
  match cs with
  | [] => .error (.consumed .endInValue [])
  | c :: rest =>
    if c = '0' then
      match rest with
      | d :: _ =>
        if d.isDigit then .error (.peeked .invalidNumber rest) else numberTail negative 0 0 rest
      | [] => numberTail negative 0 0 rest
    else if c.isDigit then
      let (significand, dropped, rest) := integerDigits (c.toNat - '0'.toNat) rest
      numberTail negative significand dropped rest
    else .error ⟨.invalidNumber, c :: rest, 1⟩

def hexValue? (c : Char) : Option Nat :=
  if c.isDigit then some (c.toNat - '0'.toNat)
  else if 'a' ≤ c ∧ c ≤ 'f' then some (c.toNat - 'a'.toNat + 10)
  else if 'A' ≤ c ∧ c ≤ 'F' then some (c.toNat - 'A'.toNat + 10)
  else none

/-- Four hexadecimal digits. -/
def hexEscape (cs : List Char) : Except Fault (Nat × List Char) :=
  let fault : Except Fault (Nat × List Char) :=
    if byteLength cs < 4 then .error (.consumed .endInString []) else .error ⟨.invalidEscape, cs, 4⟩
  match cs with
  | a :: b :: c :: d :: rest =>
    match hexValue? a, hexValue? b, hexValue? c, hexValue? d with
    | some a, some b, some c, some d => .ok (((a * 16 + b) * 16 + c) * 16 + d, rest)
    | _, _, _, _ => fault
  | _ => fault

def isHighSurrogate (n : Nat) : Bool := 0xD800 ≤ n && n ≤ 0xDBFF

def isLowSurrogate (n : Nat) : Bool := 0xDC00 ≤ n && n ≤ 0xDFFF

/-- The text behind an expected character of a surrogate pair. -/
def surrogateMark (mark : Char) : List Char → Except Fault (List Char)
  | [] => .error (.consumed .endInString [])
  | c :: cs => if c = mark then .ok cs else .error ⟨.unfinishedSurrogate, c :: cs, 1⟩

/-- The character behind `\u`; characters beyond the first 2^16 take two escapes. -/
def unicodeEscape (cs : List Char) : Except Fault (Char × List Char) := do
  let (n, rest) ← hexEscape cs
  if isLowSurrogate n then .error (.consumed .loneSurrogate rest)
  else if isHighSurrogate n then do
    let rest ← surrogateMark '\\' rest
    let rest ← surrogateMark 'u' rest
    let (m, rest) ← hexEscape rest
    if isLowSurrogate m then
      .ok (Char.ofNat ((n - 0xD800) * 1024 + (m - 0xDC00) + 0x10000), rest)
    else .error (.consumed .loneSurrogate rest)
  else .ok (Char.ofNat n, rest)

/-- The character behind a backslash. -/
def escaped (cs : List Char) : Except Fault (Char × List Char) :=
  match cs with
  | [] => .error (.consumed .endInString [])
  | '"' :: rest => .ok ('"', rest)
  | '\\' :: rest => .ok ('\\', rest)
  | '/' :: rest => .ok ('/', rest)
  | 'b' :: rest => .ok (Char.ofNat 0x8, rest)
  | 'f' :: rest => .ok (Char.ofNat 0xC, rest)
  | 'n' :: rest => .ok ('\n', rest)
  | 'r' :: rest => .ok ('\r', rest)
  | 't' :: rest => .ok ('\t', rest)
  | 'u' :: rest => unicodeEscape rest
  | c :: rest => .error ⟨.invalidEscape, c :: rest, 1⟩

/-- The characters up to the closing quote. `fuel` bounds their number. -/
def stringChars : Nat → List Char → Except Fault (List Char × List Char)
  | 0, cs => .error (.consumed .endInString cs)
  | fuel + 1, cs =>
    match cs with
    | [] => .error (.consumed .endInString [])
    | '"' :: rest => .ok ([], rest)
    | '\\' :: rest => do
      let (c, rest) ← escaped rest
      let (more, rest) ← stringChars fuel rest
      .ok (c :: more, rest)
    | c :: rest =>
      if c.toNat < 0x20 then .error ⟨.controlCharacter, c :: rest, 1⟩
      else do
        let (more, rest) ← stringChars fuel rest
        .ok (c :: more, rest)

/-- A string behind its opening quote. -/
def stringTail : Reader String := fun cs => do
  let (chars, rest) ← stringChars (cs.length + 1) cs
  .ok (.ofList chars, rest)

/-- Looks for the next item of an array: whether there is one, and the text where it starts or
where the closing bracket stands. -/
def nextItem (first : Bool) (cs : List Char) : Except Fault (Bool × List Char) :=
  match skipBlanks cs with
  | [] => .error (.peeked .endInArray [])
  | ']' :: rest => .ok (false, ']' :: rest)
  | c :: rest =>
    if first then .ok (true, c :: rest)
    else if c = ',' then
      match skipBlanks rest with
      | [] => .error (.peeked .endInValue [])
      | ']' :: rest => .error (.peeked .trailingComma (']' :: rest))
      | rest => .ok (true, rest)
    else .error (.peeked .expectedCommaOrBracket (c :: rest))

/-- Looks for the next key of an object, as `nextItem` does for an item. -/
def nextKey (first : Bool) (cs : List Char) : Except Fault (Bool × List Char) :=
  match skipBlanks cs with
  | [] => .error (.peeked .endInObject [])
  | '}' :: rest => .ok (false, '}' :: rest)
  | c :: rest =>
    if first then
      if c = '"' then .ok (true, c :: rest) else .error (.peeked .keyNotString (c :: rest))
    else if c = ',' then
      match skipBlanks rest with
      | [] => .error (.peeked .endInValue [])
      | '"' :: rest => .ok (true, '"' :: rest)
      | '}' :: rest => .error (.peeked .trailingComma ('}' :: rest))
      | rest => .error (.peeked .keyNotString rest)
    else .error (.peeked .expectedCommaOrBrace (c :: rest))

/-- The text behind the colon of a member. -/
def colon (cs : List Char) : Except Fault (List Char) :=
  match skipBlanks cs with
  | [] => .error (.peeked .endInObject [])
  | ':' :: rest => .ok rest
  | rest => .error (.peeked .expectedColon rest)

/-- The items of an array up to its closing bracket. `fuel` bounds their number. -/
def items {α : Type} (read : Reader α) : Nat → Bool → Reader (List α)
  | 0, _, cs => .error (.peeked .endInArray cs)
  | fuel + 1, first, cs => do
    let (more, cs) ← nextItem first cs
    if more then
      let (a, cs) ← read cs
      let (as, cs) ← items read fuel false cs
      .ok (a :: as, cs)
    else .ok ([], cs.tail)

/-- The members of an object up to its closing brace, each added to those found before. `fuel`
bounds their number. -/
def members {α β : Type} (read : Reader α) (add : String → α → β → β) : Nat → Bool → β → Reader β
  | 0, _, _, cs => .error (.peeked .endInObject cs)
  | fuel + 1, first, found, cs => do
    let (more, cs) ← nextKey first cs
    if more then
      let (key, cs) ← stringTail cs.tail
      let cs ← colon cs
      let (a, cs) ← read cs
      members read add fuel false (add key a found) cs
    else .ok (found, cs.tail)

/-- Reads a value that may hold arrays and objects inside each other to the given depth. Members are
kept in the order of their keys; of two with one key the last counts. -/
def value : Nat → Reader Json
  | depth, cs =>
    match skipBlanks cs with
    | [] => .error (.peeked .endInValue [])
    | 'n' :: rest => do .ok (.null, ← word ['u', 'l', 'l'] rest)
    | 't' :: rest => do .ok (.bool true, ← word ['r', 'u', 'e'] rest)
    | 'f' :: rest => do .ok (.bool false, ← word ['a', 'l', 's', 'e'] rest)
    | '-' :: rest => number true rest
    | '"' :: rest => do
      let (s, rest) ← stringTail rest
      .ok (.string s, rest)
    | '[' :: rest =>
      match depth with
      | 0 => .error (.peeked .tooDeep ('[' :: rest))
      | depth + 1 => do
        let (js, rest) ← items (value depth) (rest.length + 1) true rest
        .ok (.array js, rest)
    | '{' :: rest =>
      match depth with
      | 0 => .error (.peeked .tooDeep ('{' :: rest))
      | depth + 1 => do
        let (ms, rest) ← members (value depth) Entries.insert (rest.length + 1) true [] rest
        .ok (.object ms, rest)
    | c :: rest =>
      if c.isDigit then number false (c :: rest) else .error (.peeked .expectedValue (c :: rest))

/-- How deep arrays and objects may be nested. -/
def depthLimit : Nat := 127

/-- Nothing but blanks may follow. -/
def finish (cs : List Char) : Except Fault Unit :=
  match skipBlanks cs with
  | [] => .ok ()
  | rest => .error (.peeked .trailingCharacters rest)

/-- Reads a whole text as one value. -/
def readWhole {α : Type} (read : Reader α) (text : String) : Except Error α :=
  let cs := text.toList
  let result : Except Fault α := do
    let (a, rest) ← read cs
    finish rest
    .ok a
  result.mapError (Fault.locate cs)

/-- Reads a JSON text. -/
def parse (text : String) : Except Error Json := readWhole (value depthLimit) text

end FeatureFilter.Json
