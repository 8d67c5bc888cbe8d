import FeatureFilter.Sql.Render

namespace FeatureFilter.Sql

structure Fragment where
  sql : String
  params : List Value

/-- Whether the first parenthesis to be closed down to `depth` zero is closed by the last
character. Parentheses in quoted names do not count. -/
def closesAtEnd (depth : Nat) (quoted : Bool) : List Char → Bool
  | [] => false
  | c :: cs =>
    if c = '"' then closesAtEnd depth (!quoted) cs
    else if quoted then closesAtEnd depth quoted cs
    else if c = '(' then closesAtEnd (depth + 1) quoted cs
    else if c = ')' then
      if depth - 1 = 0 then cs.isEmpty else closesAtEnd (depth - 1) quoted cs
    else closesAtEnd depth quoted cs

/-- Whether the parenthesis that a text starts with is closed by its last character. -/
def isParenthesized (cs : List Char) : Bool := cs.head? == some '(' && closesAtEnd 0 false cs

namespace Fragment

/-- Puts parentheses around a predicate that has none. -/
def of (sql : String) (params : List Value) : Fragment :=
  ⟨if isParenthesized sql.toList then sql else "(" ++ sql ++ ")", params⟩

def toJson (f : Fragment) : Json :=
  .object [("sql", .string f.sql), ("params", .array (f.params.map Value.toJson))]

end Fragment
end FeatureFilter.Sql
