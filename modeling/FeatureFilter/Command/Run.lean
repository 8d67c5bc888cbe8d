import FeatureFilter.Collection.Registry
import FeatureFilter.Command.Usage
import FeatureFilter.Filter.Encoding

namespace FeatureFilter.Command

open Sql (Fragment Rejection Value)

/-- Why a command fails. -/
inductive Failure where
  | configFileRead (path : String)
  | config (e : ConfigError)
  | unknownCollection (id : String)
  | invalidFilter (r : Rejection)
  /-- The filter is rejected, and the reason is printed. -/
  | rejected

def Failure.message : Failure → String
  | .configFileRead path => "Failed to read the configuration file: " ++ path
  | .config e => "Failed to load the collection registry: " ++ e.message
  | .unknownCollection id => "Unknown collection '" ++ id ++ "'"
  | .invalidFilter r => "Invalid filter: " ++ r.message
  | .rejected => "Filter rejected"

/-- What a run prints and how it ends. -/
inductive Outcome where
  | done (stdout : String)
  | failed (stdout : String) (failure : Failure)
  | misuse

namespace Outcome

/-- What is printed as the result. -/
def stdout : Outcome → String
  | .done stdout => stdout
  | .failed stdout _ => stdout
  | .misuse => ""

/-- What is printed about a run that does not succeed. -/
def complaint? : Outcome → Option String
  | .done _ => none
  | .failed _ failure => some ("Error: " ++ failure.message)
  | .misuse => some "Usage: cql2sql <COMMAND>"

def exitCode : Outcome → UInt32
  | .done _ => 0
  | .failed .. => 1
  | .misuse => 2

end Outcome

/-- Files by their paths. -/
abbrev Files := String → Option String

/-- A text with blanks behind it, up to a width in characters. -/
def padRight (width : Nat) (s : String) : String :=
  s ++ .ofList (List.replicate (width - s.toList.length) ' ')

/-- A line for each parameter, with its number, its value and its type. -/
def paramLines (offset : Nat) : Nat → List Value → String
  | _, [] => ""
  | index, v :: vs =>
    "  $" ++ padRight 6 (toString (offset + index + 1)) ++ " " ++ v.write ++ " (" ++ v.typeName ++
      ")\n" ++ paramLines offset (index + 1) vs

/-- The predicate and its parameters. -/
def fragmentText (f : Fragment) (offset : Nat) : String :=
  padRight 8 "SQL" ++ " " ++ f.sql ++ "\n" ++
    (if f.params.isEmpty then padRight 8 "Params" ++ " (none)\n"
    else "Params\n" ++ paramLines offset 0 f.params)

/-- A line for each collection under a heading. -/
def collectionsText (cs : List Collection) : String :=
  let line (a b c : String) := padRight 20 a ++ " " ++ padRight 16 b ++ " " ++ c ++ "\n"
  line "Collection" "Geometry" "Queryables" ++ "-----------------------------\n" ++
    String.join (cs.map fun c => line c.id c.geometryColumn (String.intercalate ", " c.queryables))

def loadRegistry (files : Files) (path : String) : Except Failure Registry :=
  match files path with
  | none => .error (.configFileRead path)
  | some text => (Registry.ofJsonText text).mapError .config

/-- The collection that a filter is for. -/
def findCollection (files : Files) (t : Target) : Except Failure Collection := do
  let registry ← loadRegistry files t.config
  match registry.get? t.collection with
  | some c => .ok c
  | none => .error (.unknownCollection t.collection)

def runCompile (files : Files) (t : Target) (paramOffset : Nat) (json : Bool) : Outcome :=
  match findCollection files t with
  | .error e => .failed "" e
  | .ok c =>
    match compile t.filter c { language := t.language, paramOffset } with
    | .error r => .failed "" (.invalidFilter r)
    | .ok f => .done (if json then f.toJson.pretty ++ "\n" else fragmentText f paramOffset)

def runValidate (files : Files) (t : Target) : Outcome :=
  match findCollection files t with
  | .error e => .failed "" e
  | .ok c =>
    match validate t.filter c { language := t.language } with
    | none => .done "ok\n"
    | some message => .failed (message ++ "\n") .rejected

def runAst (filter : String) (language : Language) : Outcome :=
  match Expr.read language filter with
  | .error e => .failed "" (.invalidFilter (.unreadable e))
  | .ok e => .done (e.toJson.pretty ++ "\n")

def runCollections (files : Files) (config : String) (json : Bool) : Outcome :=
  match loadRegistry files config with
  | .error e => .failed "" e
  | .ok r => .done (if json then r.toJson.pretty ++ "\n" else collectionsText r.toList)

def run (files : Files) : Action → Outcome
  | .compile t paramOffset json => runCompile files t paramOffset json
  | .validate t => runValidate files t
  | .ast filter language => runAst filter language
  | .collections config json => runCollections files config json

def versionText : String := "cql2sql 0.1.0\n"

/-- Does what the arguments ask for. -/
def runArgs (files : Files) (args : List String) : Outcome :=
  match Request.ofArgs args with
  | .version => .done versionText
  | .action a => run files a
  | .misuse => .misuse

/-- The path of the file that a command reads, if it reads one. -/
def Action.configPath? : Action → Option String
  | .compile t _ _ => some t.config
  | .validate t => some t.config
  | .ast _ _ => none
  | .collections config _ => some config

end FeatureFilter.Command
