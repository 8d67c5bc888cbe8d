import FeatureFilter.Json.Printer
import FeatureFilter.Json.Reader

namespace FeatureFilter.Json

def Blanks (cs : List Char) : Prop := ∀ c ∈ cs, isBlank c = true

/-- The first part of a value stands alone, the others behind a comma. -/
def separator (first : Bool) : List Char := if first then [] else [',']

def isScalar : Json → Bool
  | .array _ | .object _ => false
  | _ => true

mutual

/-- A text of a value, without blanks around it. -/
inductive Written : Json → List Char → Prop
  | scalar : j.isScalar = true → Written j (scalar j)
  | array : WrittenItems true js cs → Written (.array js) ('[' :: cs)
  | object : WrittenMembers true ms cs → Written (.object ms) ('{' :: cs)

/-- A text of the items of an array that are left, up to its closing bracket. -/
inductive WrittenItems : Bool → List Json → List Char → Prop
  | close : Blanks gap → WrittenItems first [] (gap ++ [']'])
  | item : Blanks gap → Blanks gap' → Written j cs → WrittenItems false js rest →
    WrittenItems first (j :: js) (gap ++ (separator first ++ (gap' ++ (cs ++ rest))))

/-- A text of the members of an object that are left, up to its closing brace. -/
inductive WrittenMembers : Bool → List (String × Json) → List Char → Prop
  | close : Blanks gap → WrittenMembers first [] (gap ++ ['}'])
  | member : Blanks gap → Blanks gap' → Blanks before → Blanks behind → Written j cs →
    WrittenMembers false ms rest →
    WrittenMembers first ((key, j) :: ms)
      (gap ++ (separator first ++ (gap' ++ (quoted key ++ (before ++ ':' :: (behind ++
        (cs ++ rest)))))))

end

theorem blanks_nil : Blanks [] := by
  intro c hc
  cases hc

theorem blanks_one : Blanks [' '] := by
  intro c hc
  cases List.mem_singleton.1 hc
  rfl

theorem Blanks.append (h : Blanks cs) (h' : Blanks cs') : Blanks (cs ++ cs') := by
  intro c hc
  rcases List.mem_append.1 hc with hc | hc
  · exact h c hc
  · exact h' c hc

theorem blanks_newline (level : Nat) : Blanks (newline level) := by
  intro c hc
  rcases List.mem_cons.1 hc with rfl | hc
  · rfl
  · cases (List.mem_replicate.1 hc).2
    rfl

theorem WrittenItems.comma (h : WrittenItems true (j :: js) cs) :
    WrittenItems false (j :: js) (',' :: cs) := by
  cases h with
  | item hgap hgap' hj hrest =>
    have hitem : WrittenItems false (j :: js) _ :=
      .item blanks_nil (hgap.append hgap') hj hrest
    rwa [List.append_assoc] at hitem

theorem WrittenMembers.comma (h : WrittenMembers true (m :: ms) cs) :
    WrittenMembers false (m :: ms) (',' :: cs) := by
  cases h with
  | @member gap gap' before behind j cs ms rest _ key hgap hgap' hbefore hbehind hj hrest =>
    have hmember : WrittenMembers false ((key, j) :: ms) _ :=
      .member blanks_nil (hgap.append hgap') hbefore hbehind hj hrest
    rwa [List.append_assoc] at hmember

mutual

theorem written_compact (j : Json) : Written j j.compactChars := by
  cases j with
  | array js =>
    rw [compactChars]
    exact .array (writtenItems_compact js)
  | object ms =>
    rw [compactChars]
    exact .object (writtenMembers_compact ms)
  | null | bool | integer | float | string => exact .scalar rfl

theorem writtenItems_compact (js : List Json) :
    WrittenItems true js (compactItems js ++ [']']) := by
  cases js with
  | nil => exact .close blanks_nil
  | cons j js =>
    have hitem {rest : List Char} (hrest : WrittenItems false js rest) :
        WrittenItems true (j :: js) (j.compactChars ++ rest) :=
      .item blanks_nil blanks_nil (written_compact j) hrest
    cases js with
    | nil => exact hitem (.close blanks_nil)
    | cons k js =>
      have hrest := (writtenItems_compact (k :: js)).comma
      rw [compactItems, List.append_assoc]
      · exact hitem hrest
      · intro h
        cases h

theorem writtenMembers_compact (ms : List (String × Json)) :
    WrittenMembers true ms (compactMembers ms ++ ['}']) := by
  cases ms with
  | nil => exact .close blanks_nil
  | cons m ms =>
    obtain ⟨key, j⟩ := m
    have hmember {rest : List Char} (hrest : WrittenMembers false ms rest) :
        WrittenMembers true ((key, j) :: ms)
          (quoted key ++ ':' :: (j.compactChars ++ rest)) :=
      .member blanks_nil blanks_nil blanks_nil blanks_nil (written_compact j) hrest
    cases ms with
    | nil =>
      rw [compactMembers, List.append_assoc]
      exact hmember (.close blanks_nil)
    | cons k ms =>
      have hrest := (writtenMembers_compact (k :: ms)).comma
      rw [compactMembers, List.append_assoc, List.append_assoc]
      · exact hmember hrest
      · intro h
        cases h

end

mutual

theorem written_pretty (level : Nat) (j : Json) : Written j (j.prettyChars level) := by
  cases j with
  | array js =>
    cases js with
    | nil =>
      rw [prettyChars]
      exact .array (.close blanks_nil)
    | cons j js =>
      rw [prettyChars, List.append_assoc, List.cons_append]
      · exact .array (writtenItems_pretty (level + 1) (blanks_newline level) (j :: js))
      · intro h
        cases h
  | object ms =>
    cases ms with
    | nil =>
      rw [prettyChars]
      exact .object (.close blanks_nil)
    | cons m ms =>
      rw [prettyChars, List.append_assoc, List.cons_append]
      · exact .object (writtenMembers_pretty (level + 1) (blanks_newline level) (m :: ms))
      · intro h
        cases h
  | null | bool | integer | float | string => exact .scalar rfl

theorem writtenItems_pretty (level : Nat) (hend : Blanks gap) (js : List Json) :
    WrittenItems true js (prettyItems level js ++ (gap ++ [']'])) := by
  cases js with
  | nil => exact .close hend
  | cons j js =>
    have hitem {rest : List Char} (hrest : WrittenItems false js rest) :
        WrittenItems true (j :: js) (newline level ++ (j.prettyChars level ++ rest)) :=
      .item blanks_nil (blanks_newline level) (written_pretty level j) hrest
    cases js with
    | nil =>
      rw [prettyItems, List.append_assoc]
      exact hitem (.close hend)
    | cons k js =>
      have hrest := (writtenItems_pretty level hend (k :: js)).comma
      rw [prettyItems, List.append_assoc, List.append_assoc]
      · exact hitem hrest
      · intro h
        cases h

theorem writtenMembers_pretty (level : Nat) (hend : Blanks gap) (ms : List (String × Json)) :
    WrittenMembers true ms (prettyMembers level ms ++ (gap ++ ['}'])) := by
  cases ms with
  | nil => exact .close hend
  | cons m ms =>
    obtain ⟨key, j⟩ := m
    have hmember {rest : List Char} (hrest : WrittenMembers false ms rest) :
        WrittenMembers true ((key, j) :: ms)
          (newline level ++ (quoted key ++ ':' :: ' ' :: (j.prettyChars level ++ rest))) :=
      .member blanks_nil (blanks_newline level) blanks_nil blanks_one (written_pretty level j) hrest
    cases ms with
    | nil =>
      rw [prettyMembers, List.append_assoc, List.append_assoc]
      exact hmember (.close hend)
    | cons k ms =>
      have hrest := (writtenMembers_pretty level hend (k :: ms)).comma
      rw [prettyMembers, List.append_assoc, List.append_assoc, List.append_assoc]
      · exact hmember hrest
      · intro h
        cases h

end

end FeatureFilter.Json
