import FeatureFilter.Json.Skip
import FeatureFilter.Text.Visible

namespace FeatureFilter.Json

/-- A value of another kind than expected stands at the front of the text. -/
def mismatch (expected : String) (cs : List Char) : Fault :=
  let found (what : String) (rest : List Char) : Fault := .consumed (.wrongType what expected) rest
  let foundWord (w : List Char) (what : String) (rest : List Char) : Fault :=
    match word w rest with
    | .ok rest => found what rest
    | .error f => f
  let foundNumber : Except Fault (Json × List Char) → Fault
    | .ok (.float x, rest) => found ("floating point `" ++ numberLayout.write x ++ "`") rest
    | .ok (j, rest) => found ("integer `" ++ j.compact ++ "`") rest
    | .error f => f
  match cs with
  | 'n' :: rest => foundWord ['u', 'l', 'l'] "null" rest
  | 't' :: rest => foundWord ['r', 'u', 'e'] "boolean `true`" rest
  | 'f' :: rest => foundWord ['a', 'l', 's', 'e'] "boolean `false`" rest
  | '-' :: rest => foundNumber (number true rest)
  | '"' :: rest =>
    match stringTail rest with
    | .ok (s, rest) => found ("string " ++ Text.visible s) rest
    | .error f => f
  | '[' :: _ => found "sequence" cs
  | '{' :: _ => found "map" cs
  | c :: _ =>
    if c.isDigit then foundNumber (number false cs) else .peeked .expectedValue cs
  | [] => .peeked .endInValue []

/-- Reads a string. -/
def text : Reader String := fun cs =>
  match skipBlanks cs with
  | '"' :: rest => stringTail rest
  | rest => .error (mismatch "a string" rest)

/-- Reads an array of like values. -/
def listOf {α : Type} (read : Reader α) : Reader (List α) := fun cs =>
  match skipBlanks cs with
  | '[' :: rest => items read (rest.length + 1) true rest
  | rest => .error (mismatch "a sequence" rest)

/-- Reads an object of like values; of two with one key the last counts. -/
def dictionaryOf {α : Type} (read : Reader α) : Reader (Dictionary α) := fun cs =>
  match skipBlanks cs with
  | '{' :: rest =>
    members read (fun key a d => d.insert key a) (rest.length + 1) true Dictionary.empty rest
  | rest => .error (mismatch "a map" rest)

/-- A field of a record that is put together in `σ`. -/
structure Field (σ : Type) where
  name : String
  /-- Other keys under which the field may stand. -/
  otherNames : List String
  required : Bool
  isSet : σ → Bool
  read : σ → Reader σ

/-- A record with a title for messages and its fields in order. -/
structure Record (σ : Type) where
  title : String
  fields : List (Field σ)

namespace Record

variable {σ : Type}

/-- A field that stands twice is reported behind its key, the blanks there and a closing brace. -/
def skipClose (cs : List Char) : List Char :=
  match skipBlanks cs with
  | '}' :: rest => rest
  | rest => rest

def field? (r : Record σ) (key : String) : Option (Field σ) :=
  r.fields.find? fun f => f.name == key || f.otherNames.contains key

/-- The members of an object, those that are no field skipped. `fuel` bounds their number. -/
def readMembers (r : Record σ) : Nat → Bool → σ → Reader σ
  | 0, _, _, cs => .error (.peeked .endInObject cs)
  | fuel + 1, first, s, cs => do
    let (more, cs) ← nextKey first cs
    if more then
      let (key, cs) ← stringTail cs.tail
      match r.field? key with
      | none =>
        let cs ← skip (← colon cs)
        r.readMembers fuel false s cs
      | some f =>
        if f.isSet s then .error (.consumed (.duplicateField f.name) (skipClose cs))
        else
          let (s, cs) ← f.read s (← colon cs)
          r.readMembers fuel false s cs
    else
      match r.fields.find? fun f => f.required && !f.isSet s with
      | some f => .error (.consumed (.missingField f.name) cs.tail)
      | none => .ok (s, cs.tail)

/-- The fields in order, as the items of an array. -/
def readItems (r : Record σ) : List (Field σ) → Nat → σ → Reader σ
  | [], _, s, cs =>
    match skipBlanks cs with
    | [] => .error (.peeked .endInArray [])
    | ']' :: rest => .ok (s, rest)
    | ',' :: rest =>
      match skipBlanks rest with
      | ']' :: rest => .error (.peeked .trailingComma (']' :: rest))
      | rest => .error (.peeked .trailingCharacters rest)
    | rest => .error (.peeked .trailingCharacters rest)
  | f :: fs, index, s, cs => do
    let (more, cs) ← nextItem (index == 0) cs
    if more then
      let (s, cs) ← f.read s cs
      r.readItems fs (index + 1) s cs
    else if f.required then
      let count := r.fields.length
      let elements := toString count ++ (if count = 1 then " element" else " elements")
      .error (.consumed (.wrongLength index (r.title ++ " with " ++ elements)) cs.tail)
    else r.readItems fs (index + 1) s cs

/-- Reads a record, written as an object or as an array of its fields. -/
def read (r : Record σ) (start : σ) : Reader σ := fun cs =>
  match skipBlanks cs with
  | '{' :: rest => r.readMembers (rest.length + 1) true start rest
  | '[' :: rest => r.readItems r.fields 0 start rest
  | rest => .error (mismatch r.title rest)

end Record
end FeatureFilter.Json
