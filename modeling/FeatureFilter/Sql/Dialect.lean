import FeatureFilter.Text.Quoted

namespace FeatureFilter.Sql

/-- How a database has names and the places of bound values written. -/
structure Dialect where
  name : String
  quoteIdentifier : String → String
  /-- The place of the parameter with a number, counted from zero. -/
  placeholder : Nat → String

/-- A name in double quotes; a quote in it is written twice. -/
def quoteIdentifier (name : String) : String := .ofList (Text.quote '"' name.toList)

/-- The placeholder of the parameter with a number, counted from zero. -/
def placeholder (index : Nat) : String := "$" ++ toString (index + 1)

def Dialect.postgres : Dialect where
  name := "PostgreSQL"
  quoteIdentifier := Sql.quoteIdentifier
  placeholder := Sql.placeholder

/-- The database whose predicates are written. -/
def dialectName : String := Dialect.postgres.name

/-- The parts of a text between the occurrences of a character. -/
def splitAt (sep : Char) : List Char → List (List Char)
  | [] => [[]]
  | c :: cs =>
    if c = sep then [] :: splitAt sep cs
    else
      match splitAt sep cs with
      | part :: parts => (c :: part) :: parts
      | [] => [[c]]

/-- A name with points in it is a chain of names, each of which is quoted by itself. -/
def Dialect.quoteColumn (dialect : Dialect) (column : String) : String :=
  String.intercalate "."
    ((splitAt '.' column.toList).map fun part => dialect.quoteIdentifier (.ofList part))

def quoteColumn (column : String) : String := Dialect.postgres.quoteColumn column

end FeatureFilter.Sql
