import FeatureFilter.Dictionary
import FeatureFilter.Number.Layout

namespace FeatureFilter

open Number (Binary64)

inductive Json where
  | null
  | bool (b : Bool)
  | integer (n : Int)
  | float (x : Binary64)
  | string (s : String)
  | array (items : List Json)
  | object (members : List (String × Json))

namespace Json

/-- A double as a value: JSON has no infinities and writes them as null. -/
def ofBinary64 (x : Binary64) : Json := if x.isFinite then .float x else .null

def ofOption : Option Json → Json
  | some j => j
  | none => .null

def strings (ss : List String) : Json := .array (ss.map .string)

def getString? : Json → Option String
  | .string s => some s
  | _ => none

def getBool? : Json → Option Bool
  | .bool b => some b
  | _ => none

def getArray? : Json → Option (List Json)
  | .array items => some items
  | _ => none

/-- The value of a number as a double, an integer rounded to nearest. -/
def getBinary64? : Json → Option Binary64
  | .integer n => some (.ofInt n)
  | .float x => some x
  | _ => none

def getNat? : Json → Option Nat
  | .integer n => if 0 ≤ n then some n.toNat else none
  | _ => none

/-- The member of an object under a key. -/
def get? (key : String) : Json → Option Json
  | .object members => Entries.get? key members
  | _ => none

theorem sizeOf_get?_lt {key : String} {members : List (String × Json)} {j : Json}
    (h : Entries.get? key members = some j) : sizeOf j < sizeOf members := by
  induction members with
  | nil => simp [Entries.get?] at h
  | cons member rest ih =>
    obtain ⟨k, v⟩ := member
    simp only [Entries.get?] at h
    split at h
    · cases h
      simp
      omega
    · have := ih h
      simp
      omega

/-- The member under a key, known to be smaller than the object it stands in. -/
def member? (key : String) (members : List (String × Json)) :
    Option { j : Json // sizeOf j < sizeOf members } :=
  match h : Entries.get? key members with
  | some j => some ⟨j, sizeOf_get?_lt h⟩
  | none => none

/-- The field `key` of a record with the fields `keys`: a member of an object, or the item in its
place of an array that has an item for each field. -/
def field? (keys : List String) (key : String) (j : Json) :
    Option { x : Json // sizeOf x < sizeOf j } :=
  match j with
  | .object members =>
    (member? key members).map fun ⟨x, h⟩ => ⟨x, by simp; omega⟩
  | .array items =>
    if items.length = keys.length then
      match h : items[keys.idxOf key]? with
      | some x =>
        some ⟨x, by
          have := List.sizeOf_lt_of_mem (List.mem_of_getElem? h)
          simp
          omega⟩
      | none => none
    else none
  | _ => none

/-- The name of a choice without content: a string, or the key of an object that holds nothing. -/
def choice? : Json → Option String
  | .string name => some name
  | .object [(name, .null)] => some name
  | _ => none

end Json
end FeatureFilter
