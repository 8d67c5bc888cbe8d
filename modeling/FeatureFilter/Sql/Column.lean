import FeatureFilter.Collection.Basic
import FeatureFilter.Sql.Rejection

namespace FeatureFilter.Collection

open Sql (Rejection)

/-- The geometry column, unless it is blank. -/
def resolveGeometry (c : Collection) : Except Rejection String :=
  if Text.isBlank c.geometryColumn then .error (.noGeometryColumn c.id) else .ok c.geometryColumn

/-- The column that holds a property. Only a queryable property has one. -/
def resolve (c : Collection) (property : String) : Except Rejection String :=
  if !c.isQueryable property then .error (.notQueryable property c.id c.queryables)
  else if property = geometryProperty then c.resolveGeometry
  else
    match (c.propertyMap.get? property).filter (!Text.isBlank ·) with
    | some column => .ok column
    | none => .error (.unmappedProperty property c.id)

end FeatureFilter.Collection
