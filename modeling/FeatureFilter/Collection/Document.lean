import FeatureFilter.Collection.Basic
import FeatureFilter.Json.Typed

namespace FeatureFilter

namespace Collection

/-- The fields of a collection that have been read. -/
structure Partial where
  id : Option String
  queryables : Option (List String)
  propertyMap : Option (Dictionary String)
  geometryColumn : Option String

namespace Partial

def empty : Partial := ⟨none, none, none, none⟩

/-- The collection, with an empty map where none was given. -/
def complete (p : Partial) : Collection :=
  ⟨p.id.getD "", p.queryables.getD [], p.propertyMap.getD .empty, p.geometryColumn.getD ""⟩

end Partial

/-- Reads a value and puts it into a record. -/
def readInto {α : Type} (read : Json.Reader α) (set : α → Partial) : Json.Reader Partial :=
  fun cs =>
    (read cs).map fun (a, rest) => (set a, rest)

def record : Json.Record Partial where
  title := "struct CollectionConfig"
  fields := [
    { name := "id", otherNames := [], required := true
      isSet := (·.id.isSome)
      read := fun p => readInto Json.text fun a => { p with id := some a } },
    { name := "queryables", otherNames := [], required := true
      isSet := (·.queryables.isSome)
      read := fun p => readInto (Json.listOf Json.text) fun a => { p with queryables := some a } },
    { name := "propertyMap", otherNames := ["property_map"], required := false
      isSet := (·.propertyMap.isSome)
      read := fun p =>
        readInto (Json.dictionaryOf Json.text) fun a => { p with propertyMap := some a } },
    { name := "geometryColumn", otherNames := ["geometry_column"], required := true
      isSet := (·.geometryColumn.isSome)
      read := fun p => readInto Json.text fun a => { p with geometryColumn := some a } }]

def read : Json.Reader Collection := fun cs =>
  (record.read .empty cs).map fun (p, rest) => (p.complete, rest)

/-- Reads the document of one collection. -/
def ofJsonText (text : String) : Except ConfigError Collection :=
  (Json.readWhole read text).mapError .json

def toJson (c : Collection) : Json :=
  .object [("id", .string c.id), ("queryables", .strings c.queryables),
    ("propertyMap", .object (c.propertyMap.entries.map fun (k, v) => (k, .string v))),
    ("geometryColumn", .string c.geometryColumn)]

end Collection

/-- The record of a document that lists collections. -/
def collectionsRecord : Json.Record (Option (List Collection)) where
  title := "struct RegistryFile"
  fields := [
    { name := "collections", otherNames := [], required := true
      isSet := Option.isSome
      read := fun _ cs =>
        (Json.listOf Collection.read cs).map fun (collections, rest) => (some collections, rest) }]

/-- Reads a document that lists collections. -/
def collectionsOfJsonText (text : String) : Except ConfigError (List Collection) :=
  match Json.readWhole (collectionsRecord.read none) text with
  | .ok collections => .ok (collections.getD [])
  | .error e => .error (.json e)

end FeatureFilter
