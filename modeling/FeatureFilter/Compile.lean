import FeatureFilter.Filter.OfJson
import FeatureFilter.Filter.OfText
import FeatureFilter.Sql.Fragment

namespace FeatureFilter

open Sql (Draft Fragment Rejection)

/-- The language in which a filter is written. -/
inductive Language where
  | text
  | json
deriving DecidableEq, Repr

namespace Language

def name : Language → String
  | .text => "cql2-text"
  | .json => "cql2-json"

/-- The language with exactly this name. -/
def ofName? (s : String) : Option Language := [.text, .json].find? (·.name = s)

/-- The language that a word names, in full or in short and in any case. -/
def ofString (s : String) : Except String Language :=
  match Text.lower s with
  | "cql2-text" | "text" => .ok .text
  | "cql2-json" | "json" => .ok .json
  | other => .error ("Unknown filter language '" ++ other ++ "', expected cql2-text or cql2-json")

end Language

structure Options where
  language : Language := .text
  /-- How many parameters the query around the predicate has bound. -/
  paramOffset : Nat := 0
  /-- Filters that are nested deeper are rejected. -/
  maxDepth : Option Nat := none

/-- Reads a filter in a language. -/
def Expr.read (language : Language) (filter : String) : Except ReadError Expr :=
  match language with
  | .text => Expr.ofText filter
  | .json => Expr.ofJsonText filter

/-- Compiles a filter that has been read. -/
def compileExpr (e : Expr) (c : Collection) (options : Options) : Except Rejection Fragment :=
  let tooDeep := options.maxDepth.filter (· < e.depth)
  match tooDeep with
  | some limit => .error (.tooDeep e.depth limit)
  | none =>
    match (Draft.empty c options.paramOffset).render e with
    | (some r, _) => .error r
    | (none, d) => .ok (.of d.sql d.params)

/-- Reads and compiles a filter. -/
def compile (filter : String) (c : Collection) (options : Options) : Except Rejection Fragment :=
  match Expr.read options.language filter with
  | .error e => .error (.unreadable e)
  | .ok e => compileExpr e c options

/-- The message of a rejection, if the filter is rejected. -/
def validate (filter : String) (c : Collection) (options : Options) : Option String :=
  match compile filter c options with
  | .error r => some r.message
  | .ok _ => none

/-- How much an event matters. -/
inductive Level where
  | trace
  | debug
  | warn

/-- What the compilation of a filter reports. -/
inductive Event where
  /-- A filter has been read as a tree of some depth. -/
  | read (language : Language) (depth : Nat)
  /-- A filter for a collection has become a predicate. -/
  | compiled (collection : String) (language : Language) (fragment : Fragment)
  /-- A filter for a collection is refused. -/
  | rejected (collection : String) (language : Language) (rejection : Rejection)

namespace Event

def level : Event → Level
  | .read .. => .trace
  | .compiled .. => .debug
  | .rejected .. => .warn

def message : Event → String
  | .read .text _ => "parsed CQL2 text filter"
  | .read .json _ => "parsed CQL2-JSON filter"
  | .compiled _ _ f => "Compiled filter: " ++ f.sql
  | .rejected _ _ r => "Rejected filter: " ++ r.message

end Event

/-- The events of a compilation in order: the reading, if it succeeds, and then the outcome. -/
def compileEvents (filter : String) (c : Collection) (options : Options) : List Event :=
  let reading :=
    match Expr.read options.language filter with
    | .ok e => [.read options.language e.depth]
    | .error _ => []
  let outcome :=
    match compile filter c options with
    | .ok f => .compiled c.id options.language f
    | .error r => .rejected c.id options.language r
  reading ++ [outcome]

end FeatureFilter
