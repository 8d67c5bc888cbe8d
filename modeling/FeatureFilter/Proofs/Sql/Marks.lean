import Mathlib.Data.List.Infix
import FeatureFilter.Proofs.Sql.Script

namespace FeatureFilter.Sql

deriving instance DecidableEq for Token

/-- An item without the value that it binds. -/
inductive Mark where
  | token (t : Token)
  | column (name : String)
  /-- The place of a bound value. -/
  | hole
deriving DecidableEq

def Item.mark : Item → Mark
  | .token t => .token t
  | .column name => .column name
  | .bind _ => .hole

def Item.values : Item → List Value
  | .bind v => [v]
  | _ => []

def Script.marks (s : Script) : List Mark := s.items.map Item.mark

def Script.values (s : Script) : List Value := s.items.flatMap Item.values

/-- How many values marks have a place for. -/
def holes (ms : List Mark) : Nat := ms.count .hole

/-- The text of marks whose first hole is the parameter `k`, counted from zero. -/
def text (k : Nat) : List Mark → List Char
  | [] => []
  | .token t :: ms => t.text.toList ++ text k ms
  | .column name :: ms => (quoteColumn name).toList ++ text k ms
  | .hole :: ms => (placeholder k).toList ++ text (k + 1) ms

theorem placeholder_toList (k : Nat) :
    (placeholder k).toList = '$' :: Nat.toDigits 10 (k + 1) := by
  rw [placeholder, String.toList_append, Nat.toString_eq_repr, Nat.toList_repr]
  rfl

theorem mem_placeholder (h : ch ∈ (placeholder k).toList) : ch = '$' ∨ ch.isDigit := by
  rw [placeholder_toList] at h
  exact (List.mem_cons.1 h).imp id (Nat.isDigit_of_mem_toDigits (by decide) (by decide))

theorem text_append (k : Nat) (ms ns : List Mark) :
    text k (ms ++ ns) = text k ms ++ text (k + holes ms) ns := by
  induction ms generalizing k with
  | nil => simp only [List.nil_append, text, holes, List.count_nil, Nat.add_zero]
  | cons m ms ih =>
    cases m with
    | token t => simp [text, ih, holes]
    | column name => simp [text, ih, holes]
    | hole =>
      have he : k + 1 + holes ms = k + holes (.hole :: ms) := by
        simp only [holes, List.count_cons_self]
        omega
      simp only [List.cons_append, text, ih, he, List.append_assoc]

theorem Script.length_values (s : Script) : s.values.length = holes s.marks := by
  simp only [Script.values, Script.marks, holes]
  induction s.items with
  | nil => rfl
  | cons i items ih => cases i <;> simp [Item.values, Item.mark, ih]

namespace Script

theorem values_append (h : a.rejection = none) (b : Script) :
    (a ++ b).values = a.values ++ b.values := by
  rw [append_of_none h]
  exact List.flatMap_append

theorem values_join (h : a.rejection = none) (t : Token) (b : Script) :
    (a ++ tokens [t] ++ b).values = a.values ++ b.values := by
  have hmid : (a ++ tokens [t]).rejection = none := by
    rw [append_of_none h]
    rfl
  rw [values_append hmid, values_append h]
  simp [values, tokens, write, Item.values]

theorem values_parens (h : s.rejection = none) : (parens s).values = s.values := by
  have hopen : (tokens [.lparen] ++ s).rejection = none := by
    rwa [append_of_none rfl]
  rw [parens, values_append hopen, values_append rfl]
  simp [values, tokens, write, Item.values]

end Script

/-- A draft grows by the text of a script's marks and by its values. -/
theorem Draft.write_eq {d : Draft} (h : d.dialect = .postgres) (s : Script) :
    d.write s = (s.rejection, { d with
      sql := d.sql ++ .ofList (text (d.offset + d.params.length) s.marks)
      params := d.params ++ s.values }) := by
  simp only [Draft.write, Script.marks, Script.values, Prod.mk.injEq, true_and]
  induction s.items generalizing d with
  | nil => simp [text]
  | cons i items ih =>
    rw [List.foldl_cons, ih ((d.add_dialect i).trans h)]
    cases i with
    | token t => simp [Draft.add, Draft.push, Item.mark, Item.values, text, String.append_assoc]
    | column name =>
      simp [Draft.add, Draft.push, Item.mark, Item.values, text, String.append_assoc, h,
        quoteColumn]
    | bind v =>
      simp [Draft.add, Draft.bind, Item.mark, Item.values, text, String.append_assoc,
        Nat.add_assoc, h, Dialect.postgres]

end FeatureFilter.Sql
