import FeatureFilter.Number.Binary64

namespace FeatureFilter

open Number (Binary64)

/-- A point of the plane or, with a third ordinate, of space. -/
structure Coordinate where
  x : Binary64
  y : Binary64
  z : Option Binary64
deriving DecidableEq

inductive Geometry where
  | point (c : Coordinate)
  | lineString (cs : List Coordinate)
  | polygon (rings : List (List Coordinate))
  | multiPoint (cs : List Coordinate)
  | multiLineString (lines : List (List Coordinate))
  | multiPolygon (polygons : List (List (List Coordinate)))
  | collection (geometries : List Geometry)

namespace Coordinate

/-- Two or three ordinates in order. -/
def ofOrdinates? : List Binary64 → Option Coordinate
  | [x, y] => some ⟨x, y, none⟩
  | [x, y, z] => some ⟨x, y, some z⟩
  | _ => none

end Coordinate
end FeatureFilter
