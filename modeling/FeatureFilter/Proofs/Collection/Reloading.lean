import FeatureFilter.Command.Run
import FeatureFilter.Proofs.Collection.Registered

namespace FeatureFilter

open Json (Written WrittenMembers Blanks)

namespace Registry

/-- The document around a printed array of collections. -/
def documentOf (array : String) : String := "\x7b\"collections\": " ++ array ++ "\x7d"

theorem registerAll_toList (h : Kept r) : empty.registerAll r.toList = .ok r := by
  have hids : (r.toList.map (·.id)).Nodup := by
    have hordered := h.sound.ordered
    rw [List.pairwise_map] at hordered
    rw [List.Nodup, List.pairwise_map]
    apply hordered.imp
    intro c c' hlt he
    rw [he] at hlt
    exact absurd hlt (List.lt_irrefl _)
  have hentries : r.toList.map (fun c => (c.id, c)) = r.collections.entries := by
    have hsame : r.collections.entries.map ((fun c => (c.id, c)) ∘ Prod.snd) =
        r.collections.entries.map id := by
      apply List.map_congr_left
      intro e he
      exact Prod.ext (h e he).1 rfl
    rw [toList, Dictionary.values, List.map_map]
    exact hsame.trans (List.map_id _)
  obtain ⟨r', hr'⟩ := (exists_registerAll_iff empty r.toList).2
    ⟨h.sound.valid, hids, fun c _ => rfl⟩
  have hperm := entries_perm_of_registerAll hr'
  rw [hentries, show empty.collections.entries = [] from rfl, List.append_nil] at hperm
  have hsame : r' = r := congrArg Registry.mk (Dictionary.eq_of_perm hperm)
  rw [hr', hsame]

theorem toList_documentOf (array : String) :
    (documentOf array).toList =
      '{' :: (Json.quoted "collections" ++ ':' :: ' ' :: (array.toList ++ ['}'])) := by
  have hopen : "\x7b\"collections\": ".toList =
      '{' :: (Json.quoted "collections" ++ [':', ' ']) := by
    decide
  have hclose : "\x7d".toList = ['}'] := rfl
  change ("\x7b\"collections\": " ++ array ++ "\x7d").toList = _
  rw [String.toList_append, String.toList_append, hopen, hclose]
  simp only [List.append_assoc, List.cons_append, List.nil_append]

theorem written_documentOf (hw : Written j cs) (hgap : Blanks gap) :
    Written (.object [("collections", j)]) (documentOf (.ofList (cs ++ gap))).toList := by
  have hmember : WrittenMembers true [("collections", j)] _ :=
    .member Json.blanks_nil Json.blanks_nil Json.blanks_nil Json.blanks_one hw (.close hgap)
  rw [toList_documentOf, String.toList_ofList, List.append_assoc]
  exact .object hmember

theorem ofJsonText_documentOf (h : Reached r) (hw : Written r.toJson cs) (hgap : Blanks gap) :
    ofJsonText (documentOf (.ofList (cs ++ gap))) = .ok r := by
  have hread := collectionsOfJsonText_written (written_documentOf hw hgap)
  rw [ofJsonText_eq hread, registerAll_toList h.kept]

/-- The array that is printed for a registry is loaded as that registry, and so is every other
layout of it; what a command prints of a file is loaded as what the file was. -/
theorem ofJsonText_printed (h : Reached r) :
    ofJsonText (documentOf r.toJson.pretty) = .ok r ∧
    (∀ cs gap, Written r.toJson cs → Blanks gap →
      ofJsonText (documentOf (.ofList (cs ++ gap))) = .ok r) ∧
    ∀ (files : Command.Files) (config : String), Command.loadRegistry files config = .ok r →
      ∃ out, Command.run files (.collections config true) = .done out ∧
        ofJsonText (documentOf out) = .ok r := by
  have hpretty := Json.written_pretty 0 r.toJson
  refine ⟨?_, fun cs gap hw hgap => ofJsonText_documentOf h hw hgap, ?_⟩
  · have hread := ofJsonText_documentOf h hpretty Json.blanks_nil
    rwa [List.append_nil] at hread
  · intro files config hload
    have hread := ofJsonText_documentOf h hpretty (Json.blanks_newline 0)
    refine ⟨r.toJson.pretty ++ "\n", ?_, ?_⟩
    · simp only [Command.run, Command.runCollections, hload, if_true]
    · rwa [String.ofList_append] at hread

/-- A registry of names with quotes, a backslash, a control character and a letter beyond ASCII. -/
theorem ofJsonText_printed_quoted :
    let c := (Collection.new "a\"b" ["é\\", "geometry"] "g\n").withProperty "é\\" "\u0001"
    let r := (empty.offer c).2
    let text := "[\n  \x7b\n    \"id\": \"a\\\"b\",\n    \"queryables\": [\n      \"é\\\\\",\n" ++
      "      \"geometry\"\n    ],\n    \"propertyMap\": \x7b\n      \"é\\\\\": \"\\u0001\"\n" ++
      "    \x7d,\n    \"geometryColumn\": \"g\\n\"\n  \x7d\n]"
    Reached r ∧ r.toJson.pretty = text ∧ ofJsonText (documentOf text) = .ok r := by
  intro c r text
  have htext : r.toJson.pretty = text := by decide +kernel
  have hreached : Reached r := .offered .empty
  rw [← htext]
  exact ⟨hreached, rfl, (ofJsonText_printed hreached).1⟩

end Registry
end FeatureFilter
