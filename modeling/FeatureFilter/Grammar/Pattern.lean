namespace FeatureFilter.Grammar

inductive CharClass where
  | digit
  | letter
  | any
deriving DecidableEq

/-- Digits and letters are the ASCII ones. -/
def CharClass.has : CharClass → Char → Bool
  | .digit, c => c.isDigit
  | .letter, c => c.isAlpha
  | .any, _ => true

inductive Pattern where
  | text (cs : List Char)
  /-- A text in small letters, matched without regard to case. -/
  | anyCase (cs : List Char)
  | one (cls : CharClass)
  | seq (a b : Pattern)
  | choice (a b : Pattern)
  | optional (a : Pattern)
  | many (a : Pattern)
  /-- Takes nothing, and matches where `a` does not. -/
  | unless (a : Pattern)

namespace Pattern

/-- The text behind an expected one, and the characters in its place. -/
def scanText (same : Char → Char → Bool) : List Char → List Char → Option (List Char × List Char)
  | [], cs => some ([], cs)
  | _ :: _, [] => none
  | w :: ws, c :: cs =>
    if same w c then (scanText same ws cs).map fun (taken, rest) => (c :: taken, rest) else none

/-- Matches as often as it can, `fuel` times at most. -/
def scanMany (scan : List Char → Option (List Char × List Char)) :
    Nat → List Char → List Char × List Char
  | 0, cs => ([], cs)
  | fuel + 1, cs =>
    match scan cs with
    | none => ([], cs)
    | some (taken, rest) =>
      let (more, rest) := scanMany scan fuel rest
      (taken ++ more, rest)

/-- Matches at the front of a text: what is taken and what is left. -/
def scan : Pattern → List Char → Option (List Char × List Char)
  | .text ws, cs => scanText (· == ·) ws cs
  | .anyCase ws, cs => scanText (fun w c => w == c.toLower) ws cs
  | .one _, [] => none
  | .one cls, c :: cs => if cls.has c then some ([c], cs) else none
  | .seq a b, cs =>
    match a.scan cs with
    | none => none
    | some (taken, rest) => (b.scan rest).map fun (more, rest) => (taken ++ more, rest)
  | .choice a b, cs =>
    match a.scan cs with
    | none => b.scan cs
    | some r => some r
  | .optional a, cs =>
    match a.scan cs with
    | none => some ([], cs)
    | some r => some r
  | .many a, cs => some (scanMany a.scan cs.length cs)
  | .unless a, cs =>
    match a.scan cs with
    | none => some ([], cs)
    | some _ => none

def anyOf : List Pattern → Pattern
  | [] => .unless (.text [])
  | [p] => p
  | p :: ps => .choice p (anyOf ps)

/-- Once or more often. -/
def atLeastOne (p : Pattern) : Pattern := .seq p (.many p)

end Pattern
end FeatureFilter.Grammar
