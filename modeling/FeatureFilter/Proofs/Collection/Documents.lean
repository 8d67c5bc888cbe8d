import FeatureFilter.Collection.Document
import FeatureFilter.Proofs.Json.TypedReadback

namespace FeatureFilter

open Json (ReadsBack Written Blanks readsBack_text readsBack_list readsBack_dictionary)

def collectionsDocument (cs : List Collection) : String :=
  (Json.object [("collections", .array (cs.map Collection.toJson))]).compact

namespace Collection

theorem readInto_written {α : Type} {a : α} {read : Json.Reader α} {write : α → Json}
    (h : ReadsBack read write) (set : α → Partial) (cs gap rest : List Char)
    (hw : Written (write a) cs) (hgap : Blanks gap) :
    readInto read set (gap ++ (cs ++ rest)) = .ok (set a, rest) := by
  rw [readInto, h.read hw hgap]
  rfl

theorem fills_toJson (c : Collection) :
    record.Fills .empty
      [("id", .string c.id), ("queryables", .strings c.queryables),
        ("propertyMap", .object (c.propertyMap.entries.map fun (k, v) => (k, .string v))),
        ("geometryColumn", .string c.geometryColumn)]
      ⟨some c.id, some c.queryables, some c.propertyMap, some c.geometryColumn⟩ := by
  have hlist := readsBack_list readsBack_text
  have hmap := readsBack_dictionary readsBack_text
  apply Json.Record.Fills.field rfl rfl
    (readInto_written readsBack_text fun id => ⟨some id, none, none, none⟩)
  apply Json.Record.Fills.field rfl rfl
    (readInto_written hlist fun names => ⟨some c.id, some names, none, none⟩)
  apply Json.Record.Fills.field rfl rfl
    (readInto_written hmap fun map => ⟨some c.id, some c.queryables, some map, none⟩)
  apply Json.Record.Fills.field rfl rfl (readInto_written readsBack_text
    fun column => ⟨some c.id, some c.queryables, some c.propertyMap, some column⟩)
  exact .done rfl

theorem readsBack_collection : ReadsBack read toJson where
  read := by
    intro c cs gap hw hgap rest
    rw [read, Json.Record.read_written c.fills_toJson hw hgap]
    rfl
  starts := by
    intro c cs hw
    exact hw.startsItem rfl

end Collection

theorem fills_collections (cs : List Collection) :
    collectionsRecord.Fills none [("collections", .array (cs.map Collection.toJson))]
      (some cs) := by
  apply Json.Record.Fills.field rfl rfl
  · intro text gap rest hw hgap
    have hlist := (readsBack_list Collection.readsBack_collection).read hw hgap rest
    exact congrArg (Except.map _) hlist
  exact .done rfl

theorem collectionsOfJsonText_written {cs : List Collection}
    (hw : Written (.object [("collections", .array (cs.map Collection.toJson))]) text.toList) :
    collectionsOfJsonText text = .ok cs := by
  have hread := Json.Record.read_written (fills_collections cs) hw Json.blanks_nil []
  rw [List.nil_append, List.append_nil] at hread
  simp only [collectionsOfJsonText, Json.readWhole, hread]
  rfl

/-- Every list of collections has a document. -/
theorem collectionsOfJsonText_document (cs : List Collection) :
    collectionsOfJsonText (collectionsDocument cs) = .ok cs := by
  apply collectionsOfJsonText_written
  rw [collectionsDocument, Json.compact, String.toList_ofList]
  exact Json.written_compact _

end FeatureFilter
