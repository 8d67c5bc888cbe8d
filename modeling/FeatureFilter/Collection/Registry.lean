import FeatureFilter.Collection.Document

namespace FeatureFilter

structure Registry where
  collections : Dictionary Collection

namespace Registry

def empty : Registry := ⟨.empty⟩

def get? (r : Registry) (id : String) : Option Collection := r.collections.get? id

def toList (r : Registry) : List Collection := r.collections.values

def ids (r : Registry) : List String := r.collections.keys

def size (r : Registry) : Nat := r.collections.size

/-- Adds a valid collection whose id is not taken: whether that was done, and the registry after
it. -/
def offer (r : Registry) (c : Collection) : Except ConfigError Unit × Registry :=
  match c.validate with
  | .error e => (.error e, r)
  | .ok () =>
    if (r.get? c.id).isSome then (.error (.duplicate c.id), r)
    else (.ok (), ⟨r.collections.insert c.id c⟩)

/-- The registry with a collection that it takes. -/
def register (r : Registry) (c : Collection) : Except ConfigError Registry :=
  match r.offer c with
  | (.ok (), r) => .ok r
  | (.error e, _) => .error e

def registerAll (r : Registry) (cs : List Collection) : Except ConfigError Registry :=
  cs.foldlM register r

/-- Reads a document that lists collections and registers them in order. -/
def ofJsonText (text : String) : Except ConfigError Registry := do
  empty.registerAll (← collectionsOfJsonText text)

/-- The collections in the order of their ids. -/
def toJson (r : Registry) : Json := .array (r.toList.map Collection.toJson)

end Registry
end FeatureFilter
