import FeatureFilter.Geometry.Basic
import FeatureFilter.Number.Layout

namespace FeatureFilter

open Number (Layout)

namespace Coordinate

def wkt (c : Coordinate) : String :=
  let plane := Layout.plain.write c.x ++ " " ++ Layout.plain.write c.y
  match c.z with
  | some z => plane ++ " " ++ Layout.plain.write z
  | none => plane

end Coordinate

/-- Texts in parentheses with commas between them. -/
def wktList (parts : List String) : String := "(" ++ String.intercalate "," parts ++ ")"

def wktLine (cs : List Coordinate) : String := wktList (cs.map Coordinate.wkt)

def wktRings (rings : List (List Coordinate)) : String := wktList (rings.map wktLine)

namespace Geometry

def typeName : Geometry → String
  | .point _ => "POINT"
  | .lineString _ => "LINESTRING"
  | .polygon _ => "POLYGON"
  | .multiPoint _ => "MULTIPOINT"
  | .multiLineString _ => "MULTILINESTRING"
  | .multiPolygon _ => "MULTIPOLYGON"
  | .collection _ => "GEOMETRYCOLLECTION"

mutual

/-- The well-known text of a geometry. -/
def wkt : Geometry → String
  | .point c => "POINT" ++ wktList [c.wkt]
  | .lineString cs => "LINESTRING" ++ wktLine cs
  | .polygon rings => "POLYGON" ++ wktRings rings
  | .multiPoint cs => "MULTIPOINT" ++ wktList (cs.map fun c => wktList [c.wkt])
  | .multiLineString lines => "MULTILINESTRING" ++ wktRings lines
  | .multiPolygon polygons => "MULTIPOLYGON" ++ wktList (polygons.map wktRings)
  | .collection geometries => "GEOMETRYCOLLECTION" ++ wktList (wktEach geometries)

def wktEach : List Geometry → List String
  | [] => []
  | g :: gs => wkt g :: wktEach gs

end

/-- The well-known text of a collection with these members. -/
def collectionWkt (geometries : List Geometry) : String :=
  "GEOMETRYCOLLECTION" ++ wktList (geometries.map wkt)

end Geometry
end FeatureFilter
