import FeatureFilter.Json.Reader

namespace FeatureFilter.Json

/-- What encloses a skipped value. -/
inductive Frame where
  | array
  | object
deriving DecidableEq

/-- Whether a value comes next or, behind one or behind an opening bracket, the end of its frame. -/
inductive Expecting where
  | value
  | member
  | firstOrEnd
  | commaOrEnd
deriving DecidableEq

/-- Skips a string behind its opening quote. It stops in front of a control character, which a
string that is kept would take. `fuel` bounds the number of characters. -/
def skipString : Nat → List Char → Except Fault (List Char)
  | 0, cs => .error (.consumed .endInString cs)
  | fuel + 1, cs =>
    match cs with
    | [] => .error (.consumed .endInString [])
    | '"' :: rest => .ok rest
    | '\\' :: 'u' :: rest => do
      let (_, rest) ← hexEscape rest
      skipString fuel rest
    | '\\' :: rest => do
      let (_, rest) ← escaped rest
      skipString fuel rest
    | c :: rest =>
      if c.toNat < 0x20 then .error (.consumed .controlCharacter (c :: rest))
      else skipString fuel rest

def skipExponent (cs : List Char) : Except Fault (List Char) :=
  let cs :=
    match cs with
    | '+' :: rest => rest
    | '-' :: rest => rest
    | rest => rest
  match cs with
  | [] => .error (.consumed .invalidNumber [])
  | c :: rest =>
    if c.isDigit then .ok (rest.dropWhile Char.isDigit) else .error ⟨.invalidNumber, c :: rest, 1⟩

def skipExponentMark (cs : List Char) : Except Fault (List Char) :=
  match cs with
  | 'e' :: rest => skipExponent rest
  | 'E' :: rest => skipExponent rest
  | rest => .ok rest

def skipNumberTail (cs : List Char) : Except Fault (List Char) :=
  match cs with
  | '.' :: rest =>
    match rest with
    | [] => .error (.peeked .invalidNumber [])
    | c :: _ =>
      if c.isDigit then skipExponentMark (rest.dropWhile Char.isDigit)
      else .error (.peeked .invalidNumber rest)
  | rest => skipExponentMark rest

/-- Skips a number behind its sign. -/
def skipNumber (cs : List Char) : Except Fault (List Char) :=
  match cs with
  | [] => .error (.consumed .invalidNumber [])
  | '0' :: rest =>
    match rest with
    | c :: _ => if c.isDigit then .error (.peeked .invalidNumber rest) else skipNumberTail rest
    | [] => .ok []
  | c :: rest =>
    if c.isDigit then skipNumberTail (rest.dropWhile Char.isDigit)
    else .error ⟨.invalidNumber, c :: rest, 1⟩

def Frame.unclosed : Frame → Problem
  | .array => .endInArray
  | .object => .endInObject

def Frame.noComma : Frame → Problem
  | .array => .expectedCommaOrBracket
  | .object => .expectedCommaOrBrace

def Frame.closer : Frame → Char
  | .array => ']'
  | .object => '}'

/-- What an item of the frame starts with. -/
def Frame.item : Frame → Expecting
  | .array => .value
  | .object => .member

/-- Skips until the frames on the stack and what is expected in the innermost are read. Every step
but an entry into a frame consumes text, so `fuel` twice the length suffices. -/
def skipUntil : Nat → Expecting → List Frame → List Char → Except Fault (List Char)
  | 0, _, _, cs => .error (.peeked .endInValue cs)
  | fuel + 1, .value, stack, cs =>
    let scalar (r : Except Fault (List Char)) : Except Fault (List Char) := do
      skipUntil fuel .commaOrEnd stack (← r)
    match skipBlanks cs with
    | [] => .error (.peeked .endInValue [])
    | 'n' :: rest => scalar (word ['u', 'l', 'l'] rest)
    | 't' :: rest => scalar (word ['r', 'u', 'e'] rest)
    | 'f' :: rest => scalar (word ['a', 'l', 's', 'e'] rest)
    | '-' :: rest => scalar (skipNumber rest)
    | '"' :: rest => scalar (skipString (rest.length + 1) rest)
    | '[' :: rest => skipUntil fuel .firstOrEnd (.array :: stack) rest
    | '{' :: rest => skipUntil fuel .firstOrEnd (.object :: stack) rest
    | c :: rest =>
      if c.isDigit then scalar (skipNumber (c :: rest))
      else .error (.peeked .expectedValue (c :: rest))
  | fuel + 1, .member, stack, cs =>
    match skipBlanks cs with
    | [] => .error (.peeked .endInObject [])
    | '"' :: rest => do
      let rest ← skipString (rest.length + 1) rest
      skipUntil fuel .value stack (← colon rest)
    | rest => .error (.peeked .keyNotString rest)
  | _ + 1, .firstOrEnd, [], cs => .ok cs
  | _ + 1, .commaOrEnd, [], cs => .ok cs
  | fuel + 1, .firstOrEnd, frame :: outer, cs =>
    match skipBlanks cs with
    | [] => .error (.peeked frame.unclosed [])
    | c :: rest =>
      if c = frame.closer then skipUntil fuel .commaOrEnd outer rest
      else skipUntil fuel frame.item (frame :: outer) (c :: rest)
  | fuel + 1, .commaOrEnd, frame :: outer, cs =>
    match skipBlanks cs with
    | [] => .error (.peeked frame.unclosed [])
    | c :: rest =>
      if c = ',' then skipUntil fuel frame.item (frame :: outer) rest
      else if c = frame.closer then skipUntil fuel .commaOrEnd outer rest
      else .error (.peeked frame.noComma (c :: rest))

/-- The text behind a value. -/
def skip (cs : List Char) : Except Fault (List Char) :=
  skipUntil (2 * cs.length + 2) .value [] cs

end FeatureFilter.Json
