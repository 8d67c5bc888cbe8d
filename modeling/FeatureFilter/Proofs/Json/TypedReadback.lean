import FeatureFilter.Json.Typed
import FeatureFilter.Proofs.Dictionary
import FeatureFilter.Proofs.Json.Layouts
import FeatureFilter.Proofs.Json.Strings

namespace FeatureFilter.Json

def StartsItem (cs : List Char) : Prop := ∃ c rest, cs = c :: rest ∧ isBlank c = false ∧ c ≠ ']'

/-- A reader takes values back from their texts. -/
structure ReadsBack {α : Type} (read : Reader α) (write : α → Json) : Prop where
  read : Written (write a) cs → Blanks gap → ∀ rest, read (gap ++ (cs ++ rest)) = .ok (a, rest)
  starts : Written (write a) cs → StartsItem cs

variable {α β σ : Type}

theorem skipBlanks_cons (h : isBlank c = false) (cs : List Char) :
    skipBlanks (c :: cs) = c :: cs :=
  List.dropWhile_cons_of_neg (Bool.eq_false_iff.1 h)

theorem skipBlanks_append (h : Blanks gap) (cs : List Char) :
    skipBlanks (gap ++ cs) = skipBlanks cs :=
  List.dropWhile_append_of_pos h

theorem skipBlanks_append_cons (h : Blanks gap) (hc : isBlank c = false) (cs : List Char) :
    skipBlanks (gap ++ c :: cs) = c :: cs := by
  rw [skipBlanks_append h, skipBlanks_cons hc]

theorem Written.startsItem (h : Written j cs) (hj : j.isScalar = false) : StartsItem cs := by
  cases h with
  | scalar hscalar => exact absurd (hj.symm.trans hscalar) Bool.false_ne_true
  | array => exact ⟨'[', _, rfl, rfl, by decide⟩
  | object => exact ⟨'{', _, rfl, rfl, by decide⟩

theorem nextItem_item (hgap : Blanks gap) (hgap' : Blanks gap') (h : StartsItem cs)
    (rest : List Char) :
    nextItem first (gap ++ (separator first ++ (gap' ++ (cs ++ rest)))) =
      .ok (true, cs ++ rest) := by
  obtain ⟨c, cs, rfl, hblank, hclose⟩ := h
  have hskip : skipBlanks (gap' ++ (c :: cs ++ rest)) = c :: (cs ++ rest) :=
    skipBlanks_append_cons hgap' hblank (cs ++ rest)
  rw [nextItem, skipBlanks_append hgap]
  cases first with
  | true =>
    rw [separator, if_pos rfl, List.nil_append, hskip]
    split
    · rename_i heq
      cases heq
    · rename_i heq
      cases heq
      exact absurd rfl hclose
    · rename_i heq
      cases heq
      rfl
  | false =>
    have hcomma : skipBlanks (separator false ++ (gap' ++ (c :: cs ++ rest))) =
        ',' :: (gap' ++ (c :: cs ++ rest)) := rfl
    rw [hcomma]
    split
    · rename_i heq
      cases heq
    · rename_i heq
      cases heq
    · rename_i heq
      cases heq
      rw [if_neg Bool.false_ne_true, if_pos rfl, hskip]
      split
      · rename_i heq
        cases heq
      · rename_i heq
        cases heq
        exact absurd rfl hclose
      · rfl

theorem nextItem_close (hgap : Blanks gap) (rest : List Char) :
    nextItem first (gap ++ [']'] ++ rest) = .ok (false, ']' :: rest) := by
  rw [nextItem, List.append_assoc, List.cons_append, skipBlanks_append_cons hgap rfl]
  rfl

theorem nextKey_member (hgap : Blanks gap) (hgap' : Blanks gap') (key : String)
    (rest : List Char) :
    nextKey first (gap ++ (separator first ++ (gap' ++ (quoted key ++ rest)))) =
      .ok (true, quoted key ++ rest) := by
  have hskip : skipBlanks (gap' ++ (quoted key ++ rest)) = quoted key ++ rest := by
    rw [quoted_append, skipBlanks_append_cons hgap' rfl]
  rw [nextKey, skipBlanks_append hgap]
  cases first with
  | true =>
    rw [separator, if_pos rfl, List.nil_append, hskip, quoted_append]
    rfl
  | false =>
    have hcomma : skipBlanks (separator false ++ (gap' ++ (quoted key ++ rest))) =
        ',' :: (gap' ++ (quoted key ++ rest)) := rfl
    rw [hcomma]
    split
    · rename_i heq
      cases heq
    · rename_i heq
      cases heq
    · rename_i heq
      cases heq
      rw [if_neg Bool.false_ne_true, if_pos rfl, hskip, quoted_append]
      rfl

theorem nextKey_close (hgap : Blanks gap) (rest : List Char) :
    nextKey first (gap ++ ['}'] ++ rest) = .ok (false, '}' :: rest) := by
  rw [nextKey, List.append_assoc, List.cons_append, skipBlanks_append_cons hgap rfl]
  rfl

theorem stringTail_quoted (key : String) (rest : List Char) :
    stringTail (quoted key ++ rest).tail = .ok (key, rest) := by
  rw [quoted_append]
  exact stringTail_escaped key rest

theorem colon_append (hgap : Blanks gap) (rest : List Char) :
    colon (gap ++ ':' :: rest) = .ok rest := by
  rw [colon, skipBlanks_append_cons hgap rfl]
  rfl

theorem length_separator_le (first : Bool) : (separator first).length ≤ 1 := by
  cases first with
  | true | false => decide

/-- Each item but the first takes its comma, and the closing bracket one sign more. -/
theorem WrittenItems.length_le (h : WrittenItems first js cs) :
    js.length + (separator first).length ≤ cs.length := by
  induction js generalizing first cs with
  | nil =>
    cases h with
    | close =>
      have hseparator := length_separator_le first
      rw [List.length_append, List.length_nil, List.length_singleton]
      omega
  | cons j js ih =>
    cases h with
    | item _ _ _ hrest =>
      have hrest := ih hrest
      rw [separator, if_neg Bool.false_ne_true, List.length_singleton] at hrest
      simp only [List.length_append, List.length_cons]
      omega

theorem WrittenMembers.length_le (h : WrittenMembers first ms cs) :
    ms.length + (separator first).length ≤ cs.length := by
  induction ms generalizing first cs with
  | nil =>
    cases h with
    | close =>
      have hseparator := length_separator_le first
      rw [List.length_append, List.length_nil, List.length_singleton]
      omega
  | cons m ms ih =>
    cases h with
    | member _ _ _ _ _ hrest =>
      have hrest := ih hrest
      rw [separator, if_neg Bool.false_ne_true, List.length_singleton] at hrest
      simp only [List.length_append, List.length_cons]
      omega

variable {read : Reader α} {write : α → Json}

theorem items_written (h : ReadsBack read write) (hw : WrittenItems first (as.map write) cs)
    (hfuel : as.length < fuel) (rest : List Char) :
    items read fuel first (cs ++ rest) = .ok (as, rest) := by
  induction as generalizing fuel first cs with
  | nil =>
    cases fuel with
    | zero => cases hfuel
    | succ fuel =>
      cases hw with
      | close hgap =>
        rw [items, nextItem_close hgap]
        rfl
  | cons a as ih =>
    cases fuel with
    | zero => cases hfuel
    | succ fuel =>
      cases hw with
      | item hgap hgap' ha hrest =>
        have hread (more : List Char) := h.read ha blanks_nil more
        simp only [List.nil_append] at hread
        simp only [List.append_assoc, items, nextItem_item hgap hgap' (h.starts ha), bind,
          Except.bind, if_true, hread, ih hrest (Nat.lt_of_succ_lt_succ hfuel)]

/-- Behind its opening bracket a list is read item by item. -/
theorem readsBack_list (h : ReadsBack read write) :
    ReadsBack (listOf read) fun as => .array (as.map write) where
  read := by
    intro as cs gap hw hgap rest
    cases hw with
    | scalar hscalar => cases hscalar
    | @array _ cs hw =>
      have hlen := hw.length_le
      have hopen : listOf read (gap ++ ('[' :: cs ++ rest)) =
          items read ((cs ++ rest).length + 1) true (cs ++ rest) := by
        rw [listOf, List.cons_append, skipBlanks_append_cons hgap rfl]
        rfl
      rw [hopen]
      apply items_written h hw
      rw [List.length_map] at hlen
      rw [List.length_append]
      omega
  starts := by
    intro as cs hw
    exact hw.startsItem rfl

theorem readsBack_text : ReadsBack text .string where
  read := by
    intro s cs gap hw hgap rest
    cases hw with
    | scalar =>
      rw [scalar, quoted_append, text, skipBlanks_append_cons hgap rfl]
      exact stringTail_escaped s rest
  starts := by
    intro s cs hw
    cases hw with
    | scalar => exact ⟨'"', _, rfl, rfl, by decide⟩

variable {add : String → α → β → β}

theorem members_written (h : ReadsBack read write) {es : List (String × α)}
    (hw : WrittenMembers first (es.map fun e => (e.1, write e.2)) cs) (hfuel : es.length < fuel)
    (found : β) (rest : List Char) :
    members read add fuel first found (cs ++ rest) =
      .ok (es.foldl (fun found e => add e.1 e.2 found) found, rest) := by
  induction es generalizing fuel first cs found with
  | nil =>
    cases fuel with
    | zero => cases hfuel
    | succ fuel =>
      cases hw with
      | close hgap =>
        rw [members, nextKey_close hgap]
        rfl
  | cons e es ih =>
    cases fuel with
    | zero => cases hfuel
    | succ fuel =>
      cases hw with
      | member hgap hgap' hbefore hbehind ha hrest =>
        simp only [List.append_assoc, List.cons_append, members, nextKey_member hgap hgap', bind,
          Except.bind, if_true, stringTail_quoted, colon_append hbefore, h.read ha hbehind,
          ih hrest (Nat.lt_of_succ_lt_succ hfuel), List.foldl_cons]

theorem foldl_insert_entries (d : Dictionary α) (es : List (String × α))
    (h : Entries.Sorted (d.entries ++ es)) :
    (es.foldl (fun d e => d.insert e.1 e.2) d).entries = d.entries ++ es := by
  induction es generalizing d with
  | nil => rw [List.foldl_nil, List.append_nil]
  | cons e es ih =>
    have hlast : (d.insert e.1 e.2).entries = d.entries ++ [e] := by
      apply Entries.insert_append_last
      intro e' he'
      exact (List.pairwise_append.1 h).2.2 e' he' e List.mem_cons_self
    rw [List.append_cons] at h
    rw [List.foldl_cons, ih _ (by rw [hlast]; exact h), hlast, ← List.append_cons]

theorem readsBack_dictionary (h : ReadsBack read write) :
    ReadsBack (dictionaryOf read) fun d => .object (d.entries.map fun e => (e.1, write e.2)) where
  read := by
    intro d cs gap hw hgap rest
    have hall : d.entries.foldl (fun d e => d.insert e.1 e.2) Dictionary.empty = d :=
      Dictionary.ext_entries (foldl_insert_entries .empty d.entries d.sorted)
    cases hw with
    | scalar hscalar => cases hscalar
    | @object _ cs hw =>
      have hlen := hw.length_le
      have hopen : dictionaryOf read (gap ++ ('{' :: cs ++ rest)) =
          members read (fun key a d => d.insert key a) ((cs ++ rest).length + 1) true .empty
            (cs ++ rest) := by
        rw [dictionaryOf, List.cons_append, skipBlanks_append_cons hgap rfl]
        rfl
      rw [hopen, members_written h hw, hall]
      rw [List.length_map] at hlen
      rw [List.length_append]
      omega
  starts := by
    intro d cs hw
    exact hw.startsItem rfl

namespace Record

/-- The members of an object are fields of a record that has `s`, and with them it has `s'`. -/
inductive Fills (r : Record σ) : σ → List (String × Json) → σ → Prop
  | done : r.fields.find? (fun f => f.required && !f.isSet s) = none → Fills r s [] s
  | field : r.field? key = some f → f.isSet s = false →
    (∀ cs gap rest, Written j cs → Blanks gap → f.read s (gap ++ (cs ++ rest)) = .ok (s', rest)) →
    Fills r s' ms s'' → Fills r s ((key, j) :: ms) s''

variable {r : Record σ} {s s' : σ}

theorem readMembers_written (h : r.Fills s ms s') (hw : WrittenMembers first ms cs)
    (hfuel : ms.length < fuel) (rest : List Char) :
    r.readMembers fuel first s (cs ++ rest) = .ok (s', rest) := by
  induction h generalizing fuel first cs with
  | done hset =>
    cases fuel with
    | zero => cases hfuel
    | succ fuel =>
      cases hw with
      | close hgap =>
        simp only [readMembers, nextKey_close hgap, bind, Except.bind, Bool.false_eq_true, if_false,
          hset, List.tail_cons]
  | field hf hset hread _ ih =>
    cases fuel with
    | zero => cases hfuel
    | succ fuel =>
      cases hw with
      | member hgap hgap' hbefore hbehind hj hrest =>
        simp only [List.append_assoc, List.cons_append, readMembers, nextKey_member hgap hgap',
          bind, Except.bind, if_true, stringTail_quoted, colon_append hbefore, hf, hset,
          Bool.false_eq_true, if_false, hread _ _ _ hj hbehind,
          ih hrest (Nat.lt_of_succ_lt_succ hfuel)]

theorem read_written (h : r.Fills s ms s') (hw : Written (.object ms) cs) (hgap : Blanks gap)
    (rest : List Char) : r.read s (gap ++ (cs ++ rest)) = .ok (s', rest) := by
  cases hw with
  | scalar hscalar => cases hscalar
  | @object _ cs hw =>
    have hlen := hw.length_le
    have hopen : r.read s (gap ++ ('{' :: cs ++ rest)) =
        r.readMembers ((cs ++ rest).length + 1) true s (cs ++ rest) := by
      rw [read, List.cons_append, skipBlanks_append_cons hgap rfl]
      rfl
    rw [hopen]
    apply readMembers_written h hw
    rw [List.length_append]
    omega

end Record
end FeatureFilter.Json
