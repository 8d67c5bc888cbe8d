import FeatureFilter.Json.Basic

namespace FeatureFilter.Json

open Number (Binary64 Layout)

/-- Numbers from 10^-5 up to 10^16 are positional, a whole number ends in a point and a zero, and a
double in the middle between two decimals goes to the even one. -/
def numberLayout : Layout where
  tie := .even
  positional e := decide (-5 ≤ e ∧ e < 16)
  pointZero := true

def hexDigit (n : Nat) : Char := (Nat.toDigits 16 n).headD '0'

/-- A character inside quotes: quotes, backslashes and control characters are escaped. -/
def escape (c : Char) : List Char :=
  if c = '"' then ['\\', '"']
  else if c = '\\' then ['\\', '\\']
  else if c = '\n' then ['\\', 'n']
  else if c = '\r' then ['\\', 'r']
  else if c = '\t' then ['\\', 't']
  else if c.toNat = 0x8 then ['\\', 'b']
  else if c.toNat = 0xC then ['\\', 'f']
  else if c.toNat < 0x20 then
    ['\\', 'u', '0', '0', hexDigit (c.toNat / 16), hexDigit (c.toNat % 16)]
  else [c]

def quoted (s : String) : List Char := '"' :: s.toList.flatMap escape ++ ['"']

/-- A value without parts. -/
def scalar : Json → List Char
  | .null => "null".toList
  | .bool true => "true".toList
  | .bool false => "false".toList
  | .integer n => (toString n).toList
  | .float x => (numberLayout.write x).toList
  | .string s => quoted s
  | .array _ => []
  | .object _ => []

mutual

/-- The form without blanks. -/
def compactChars : Json → List Char
  | .array items => '[' :: compactItems items ++ [']']
  | .object members => '{' :: compactMembers members ++ ['}']
  | j => scalar j

def compactItems : List Json → List Char
  | [] => []
  | [j] => compactChars j
  | j :: rest => compactChars j ++ ',' :: compactItems rest

def compactMembers : List (String × Json) → List Char
  | [] => []
  | [(k, j)] => quoted k ++ ':' :: compactChars j
  | (k, j) :: rest => quoted k ++ ':' :: compactChars j ++ ',' :: compactMembers rest

end

/-- A new line with two blanks for each level. -/
def newline (level : Nat) : List Char := '\n' :: List.replicate (2 * level) ' '

mutual

/-- The form with one item to a line, inside `level` enclosing values. -/
def prettyChars (level : Nat) : Json → List Char
  | .array [] => ['[', ']']
  | .array items => '[' :: prettyItems (level + 1) items ++ newline level ++ [']']
  | .object [] => ['{', '}']
  | .object members => '{' :: prettyMembers (level + 1) members ++ newline level ++ ['}']
  | j => scalar j

def prettyItems (level : Nat) : List Json → List Char
  | [] => []
  | [j] => newline level ++ prettyChars level j
  | j :: rest => newline level ++ prettyChars level j ++ ',' :: prettyItems level rest

def prettyMembers (level : Nat) : List (String × Json) → List Char
  | [] => []
  | [(k, j)] => newline level ++ quoted k ++ ':' :: ' ' :: prettyChars level j
  | (k, j) :: rest =>
    newline level ++ quoted k ++ ':' :: ' ' :: prettyChars level j ++
      ',' :: prettyMembers level rest

end

def compact (j : Json) : String := .ofList j.compactChars

def pretty (j : Json) : String := .ofList (j.prettyChars 0)

end FeatureFilter.Json
