import FeatureFilter.Grammar.Pattern
import FeatureFilter.Text.Position

namespace FeatureFilter.Grammar

open Text (Position Span)

/-- The body of a rule. -/
inductive Phrase (ρ : Type) where
  | nothing
  | endOfText
  /-- Punctuation. -/
  | mark (cs : List Char)
  | rule (r : ρ)
  /-- Blanks may stand between the two parts. -/
  | seq (a b : Phrase ρ)
  | choice (a b : Phrase ρ)
  | optional (a : Phrase ρ)
  /-- Any number of times, with blanks between. -/
  | many (a : Phrase ρ)

/-- A rule is a token, or a phrase of other rules. -/
inductive Definition (ρ : Type) where
  | token (p : Pattern)
  | phrase (e : Phrase ρ)

/-- What each rule stands for, and how many rules there are. -/
structure RuleSet (ρ : Type) where
  define : ρ → Definition ρ
  size : Nat

/-- What a rule matched. -/
inductive ParseTree (ρ : Type) where
  | token (rule : ρ) (span : Span) (lexeme : List Char)
  | node (rule : ρ) (span : Span) (children : List (ParseTree ρ))

/-- A point in a text and what is left of it. -/
structure Cursor where
  position : Position
  rest : List Char
deriving DecidableEq

def isBlank (c : Char) : Bool := c == ' ' || c == '\t' || c == '\r' || c == '\n'

namespace Cursor

def ofText (cs : List Char) : Cursor := ⟨.origin, cs⟩

/-- Moves over characters that have been taken. -/
def moveTo (c : Cursor) (taken rest : List Char) : Cursor := ⟨c.position.after taken, rest⟩

def skipBlanks (c : Cursor) : Cursor :=
  c.moveTo (c.rest.takeWhile isBlank) (c.rest.dropWhile isBlank)

end Cursor

/-- The rules that were tried and failed at the furthest point. -/
structure Attempts (ρ : Type) where
  position : Position
  rules : List ρ

namespace Attempts

variable {ρ : Type}

def start : Attempts ρ := ⟨.origin, []⟩

/-- How many rules have failed at a point. -/
def countAt (a : Attempts ρ) (p : Position) : Nat :=
  if p.offset = a.position.offset then a.rules.length else 0

/-- Takes note that a rule failed where it started. A rule stands for the rules that failed inside
it at the same point, unless that was exactly one, which then stands for itself. -/
def record (rule : ρ) (start : Position) (before after : Attempts ρ) : Attempts ρ :=
  let earlier := before.countAt start
  if after.countAt start = earlier + 1 then after
  else if start.offset = after.position.offset then
    { after with rules := after.rules.take earlier ++ [rule] }
  else if after.position.offset < start.offset then ⟨start, [rule]⟩
  else after

end Attempts

/-- The end of an attempt: the failures so far and, on success, the point behind the match and the
trees of the rules in it. -/
structure Outcome (ρ : Type) where
  attempts : Attempts ρ
  result : Option (Cursor × List (ParseTree ρ))

/-- Something to be tried at a point. -/
abbrev Step (ρ : Type) := Cursor → Attempts ρ → Outcome ρ

variable {ρ : Type}

/-- Tries again behind blanks as long as it succeeds, `fuel` times at most. -/
def runMany (step : Step ρ) : Nat → Step ρ
  | 0, c, a => ⟨a, some (c, [])⟩
  | fuel + 1, c, a =>
    match step c.skipBlanks a with
    | ⟨a, none⟩ => ⟨a, some (c, [])⟩
    | ⟨a, some (d, ts)⟩ =>
      match runMany step fuel d a with
      | ⟨a, none⟩ => ⟨a, none⟩
      | ⟨a, some (d, us)⟩ => ⟨a, some (d, ts ++ us)⟩

/-- Tries a phrase, the rules in it by `call`. -/
def Phrase.run (call : ρ → Step ρ) : Phrase ρ → Step ρ
  | .nothing, c, a => ⟨a, some (c, [])⟩
  | .endOfText, c, a => ⟨a, if c.rest.isEmpty then some (c, []) else none⟩
  | .mark ws, c, a =>
    match Pattern.scan (.text ws) c.rest with
    | none => ⟨a, none⟩
    | some (taken, rest) => ⟨a, some (c.moveTo taken rest, [])⟩
  | .rule r, c, a => call r c a
  | .seq x y, c, a =>
    match x.run call c a with
    | ⟨a, none⟩ => ⟨a, none⟩
    | ⟨a, some (d, ts)⟩ =>
      match y.run call d.skipBlanks a with
      | ⟨a, none⟩ => ⟨a, none⟩
      | ⟨a, some (d, us)⟩ => ⟨a, some (d, ts ++ us)⟩
  | .choice x y, c, a =>
    match x.run call c a with
    | ⟨a, none⟩ => y.run call c a
    | ⟨a, some r⟩ => ⟨a, some r⟩
  | .optional x, c, a =>
    match x.run call c a with
    | ⟨a, none⟩ => ⟨a, some (c, [])⟩
    | ⟨a, some r⟩ => ⟨a, some r⟩
  | .many x, c, a =>
    match x.run call c a with
    | ⟨a, none⟩ => ⟨a, some (c, [])⟩
    | ⟨a, some (d, ts)⟩ =>
      match runMany (x.run call) (d.rest.length + 1) d a with
      | ⟨a, none⟩ => ⟨a, none⟩
      | ⟨a, some (d, us)⟩ => ⟨a, some (d, ts ++ us)⟩

/-- Tries a rule, in which rules may stand inside each other to the given depth. -/
def RuleSet.call (g : RuleSet ρ) : Nat → ρ → Step ρ
  | 0, _, _, a => ⟨a, none⟩
  | depth + 1, r, c, a =>
    match g.define r with
    | .token p =>
      match p.scan c.rest with
      | none => ⟨.record r c.position a a, none⟩
      | some (taken, rest) =>
        let d := c.moveTo taken rest
        ⟨a, some (d, [.token r (.between c.position d.position) taken])⟩
    | .phrase e =>
      match e.run (g.call depth) c a with
      | ⟨b, none⟩ => ⟨.record r c.position a b, none⟩
      | ⟨b, some (d, ts)⟩ => ⟨b, some (d, [.node r (.between c.position d.position) ts])⟩

/-- A rule that is tried inside another starts behind it, or at the same point and then is not the
same rule; so no text leads deeper than this. -/
def RuleSet.depthFor (g : RuleSet ρ) (text : List Char) : Nat := (text.length + 1) * (g.size + 1)

/-- Tries a rule at the start of a text. -/
def RuleSet.parse (g : RuleSet ρ) (start : ρ) (text : List Char) : Outcome ρ :=
  g.call (g.depthFor text) start (.ofText text) .start

end FeatureFilter.Grammar
