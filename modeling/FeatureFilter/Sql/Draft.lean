import FeatureFilter.Sql.Column
import FeatureFilter.Sql.Dialect
import FeatureFilter.Sql.Value

namespace FeatureFilter.Sql

/-- The text of a predicate and the values bound so far, for a collection in a database. -/
structure Draft where
  collection : Collection
  dialect : Dialect
  /-- How many parameters the query around the predicate has bound. -/
  offset : Nat
  sql : String
  params : List Value

namespace Draft

def empty (collection : Collection) (offset : Nat) (dialect : Dialect := .postgres) : Draft :=
  ⟨collection, dialect, offset, "", []⟩

def push (d : Draft) (text : String) : Draft := { d with sql := d.sql ++ text }

/-- Binds a value and writes its placeholder, which has the next number. -/
def bind (d : Draft) (v : Value) : Draft :=
  { d with
    sql := d.sql ++ d.dialect.placeholder (d.offset + d.params.length)
    params := d.params ++ [v] }

end Draft
end FeatureFilter.Sql
