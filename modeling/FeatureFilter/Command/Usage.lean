import FeatureFilter.Compile

namespace FeatureFilter.Command

/-- A filter and the collection that it is for. -/
structure Target where
  config : String
  collection : String
  filter : String
  language : Language

inductive Action where
  | compile (target : Target) (paramOffset : Nat) (json : Bool)
  | validate (target : Target)
  | ast (filter : String) (language : Language)
  | collections (config : String) (json : Bool)

/-- What the arguments ask for. -/
inductive Request where
  | version
  | action (a : Action)
  /-- They break the rules of usage. -/
  | misuse

/-- The options and flags that a command has. -/
structure Accepted where
  options : List String
  flags : List String

/-- The options and flags that were given. -/
structure Given where
  options : List (String × String)
  flags : List String

namespace Given

def nothing : Given := ⟨[], []⟩

def option? (g : Given) (name : String) : Option String := g.options.lookup name

def flag (g : Given) (name : String) : Bool := g.flags.contains name

end Given

/-- Text behind two hyphens: a name and, behind an equals sign, a value. -/
def splitOption (cs : List Char) : String × Option String :=
  let name := cs.takeWhile (· != '=')
  match cs.dropWhile (· != '=') with
  | [] => (.ofList name, none)
  | _ :: value => (.ofList name, some (.ofList value))

/-- Whether an argument can be a value: it is not an option, though it may be a lone hyphen. -/
def isValue (arg : String) : Bool := arg == "-" || arg.toList.head? != some '-'

/-- Collects the options and flags of a command. -/
def collect (accepted : Accepted) : List String → Given → Option Given
  | [], given => some given
  | arg :: args, given =>
    match arg.toList with
    | '-' :: '-' :: [] => if args.isEmpty then some given else none
    | '-' :: '-' :: cs =>
      let (name, value) := splitOption cs
      if accepted.flags.contains name then
        if value.isSome || given.flag name then none
        else collect accepted args { given with flags := name :: given.flags }
      else if accepted.options.contains name && (given.option? name).isNone then
        match value with
        | some value =>
          collect accepted args { given with options := (name, value) :: given.options }
        | none =>
          match args with
          | [] => none
          | value :: args =>
            if isValue value then
              collect accepted args { given with options := (name, value) :: given.options }
            else none
      else none
    | _ => none

/-- A number without a minus sign that fits 64 bits. -/
def readUnsigned? (s : String) : Option Nat :=
  let digits :=
    match s.toList with
    | '+' :: ds => ds
    | ds => ds
  let n := Time.digitsValue digits
  if !digits.isEmpty && digits.all Char.isDigit && n < Nat.pow 2 64 then some n else none

namespace Given

def language? (g : Given) : Option Language :=
  match g.option? "lang" with
  | some s => (Language.ofString s).toOption
  | none => some .text

def paramOffset? (g : Given) : Option Nat :=
  match g.option? "param-offset" with
  | some s => readUnsigned? s
  | none => some 0

def target? (g : Given) : Option Target := do
  some ⟨← g.option? "config", ← g.option? "collection", ← g.option? "filter", ← g.language?⟩

end Given

def targetOptions : List String := ["config", "collection", "filter", "lang"]

/-- The command with a name and the arguments behind it. -/
def action? (name : String) (args : List String) : Option Action :=
  match name with
  | "compile" => do
    let given ← collect ⟨"param-offset" :: targetOptions, ["json"]⟩ args .nothing
    some (.compile (← given.target?) (← given.paramOffset?) (given.flag "json"))
  | "validate" => do
    let given ← collect ⟨targetOptions, []⟩ args .nothing
    some (.validate (← given.target?))
  | "ast" => do
    let given ← collect ⟨["filter", "lang"], []⟩ args .nothing
    some (.ast (← given.option? "filter") (← given.language?))
  | "collections" => do
    let given ← collect ⟨["config"], ["json"]⟩ args .nothing
    some (.collections (← given.option? "config") (given.flag "json"))
  | _ => none

def Request.ofArgs : List String → Request
  | [] => .misuse
  | "--version" :: _ => .version
  | name :: args =>
    if name.toList.take 2 = ['-', 'V'] then .version
    else
      match action? name args with
      | some a => .action a
      | none => .misuse

end FeatureFilter.Command
