import FeatureFilter.Dictionary
import FeatureFilter.Json.Fault
import FeatureFilter.Text.Blank

namespace FeatureFilter

structure Collection where
  id : String
  /-- The properties that a filter may name. -/
  queryables : List String
  /-- The column of each property. -/
  propertyMap : Dictionary String
  geometryColumn : String

/-- The property that stands for the geometry column of any collection. -/
def geometryProperty : String := "geometry"

/-- What is wrong with a collection. -/
inductive Flaw where
  | blankId
  | noQueryables
  | blankGeometryColumn
  | blankColumn (property : String)
  | unmapped (property : String)
deriving DecidableEq

def Flaw.message : Flaw → String
  | .blankId => "collection id is empty"
  | .noQueryables => "no queryable properties"
  | .blankGeometryColumn => "geometryColumn is empty"
  | .blankColumn property => "property '" ++ property ++ "' maps to an empty column"
  | .unmapped property => "queryable '" ++ property ++ "' has no propertyMap entry"

/-- Why collections could not be loaded. -/
inductive ConfigError where
  | json (e : Json.Error)
  | duplicate (id : String)
  | invalid (id : String) (flaw : Flaw)

def ConfigError.message : ConfigError → String
  | .json e => "Invalid collection config JSON: " ++ e.message
  | .duplicate id => "Duplicate collection id '" ++ id ++ "'"
  | .invalid id flaw => "Collection '" ++ id ++ "': " ++ flaw.message

namespace Collection

/-- A collection without mapped properties. -/
def new (id : String) (queryables : List String) (geometryColumn : String) : Collection :=
  ⟨id, queryables, .empty, geometryColumn⟩

/-- Maps a property to a column. -/
def withProperty (c : Collection) (property column : String) : Collection :=
  { c with propertyMap := c.propertyMap.insert property column }

def isQueryable (c : Collection) (property : String) : Bool := c.queryables.contains property

/-- What is wrong with the column of a queryable property. -/
def mappingFlaw? (c : Collection) (property : String) : Option Flaw :=
  if property = geometryProperty then none
  else
    match c.propertyMap.get? property with
    | none => some (.unmapped property)
    | some column => if Text.isBlank column then some (.blankColumn property) else none

/-- The first thing that is wrong with a collection. -/
def flaw? (c : Collection) : Option Flaw :=
  if Text.isBlank c.id then some .blankId
  else if c.queryables.isEmpty then some .noQueryables
  else if Text.isBlank c.geometryColumn then some .blankGeometryColumn
  else c.queryables.findSome? c.mappingFlaw?

def validate (c : Collection) : Except ConfigError Unit :=
  match c.flaw? with
  | some flaw => .error (.invalid c.id flaw)
  | none => .ok ()

end Collection
end FeatureFilter
