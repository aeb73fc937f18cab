import DependencyDiagram.Areas.Markup
import DependencyDiagram.Text.Blank
import DependencyDiagram.Picture.SideTable
import DependencyDiagram.Identity.EdgeId

/-!
# Clickable areas

An area of the rendered picture stands for an element of the diagram. The side table says
which elements there are: an element of the image map without an identifier, or with one
that the table does not list, is no area. The table also gives the class and, before the
markup's own title, the tooltip.

The class decides how an area's identifier is read, since a name may end like the
identifier of a label.
-/

namespace DependencyDiagram

/-- A clickable region and what is known of its element. The identifier stays as it is
written in the image map; what it denotes is read from it only when the area is used. -/
structure Area where
  id : String
  shape : String
  coords : List Int
  className : String
  tooltip : Option String
deriving DecidableEq, Repr

namespace Area

/-- The element for which the area stands. -/
def target (area : Area) : Except Failure ElementId :=
  if area.className = ElementClass.edgeLabel.name then ElementId.decodeEdgeLabel area.id
  else ElementId.decode area.id

end Area

namespace Areas

/-- The largest coordinate. -/
def maxCoordinate : Nat := 2147483647

/-- A character between two coordinates. -/
def separatesCoordinates (character : Char) : Bool := character == ',' || Text.isBlank character

/-- The failure for a coordinate that is no number. -/
def badCoordinate (part : String) : Failure :=
  ((Failure.ofKind .deserializationFailed ("bad area coordinate '" ++ part ++ "'")).during
    "imagemap::parse").withSource

/-- The parts of a list of coordinates. -/
def coordinateParts (text : String) : List String :=
  ((text.toList.splitOnP separatesCoordinates).filter (fun part => !part.isEmpty)).map String.ofList

/-- Read a list of coordinates. -/
def readCoordinates (text : String) : Except Failure (List Int) :=
  (coordinateParts text).mapM (fun part =>
    match Text.integer? maxCoordinate part with
    | some value => .ok value
    | none => .error (badCoordinate part))

/-- What an element of the image map says about its area. It is what can be said without the
side table. An outline that names no element, or one that the side table does not list,
becomes no area, but its coordinates are read all the same. -/
structure Outline where
  id : Option String
  shape : String
  coords : List Int
  title : Option String
deriving DecidableEq, Repr

namespace Outline

/-- The outline of an element without attributes. -/
def blank : Outline := ⟨none, "rect", [], none⟩

/-- Take one attribute into account. A repeated attribute replaces the earlier one. -/
def accept (outline : Outline) (pair : String × String) : Except Failure Outline :=
  if pair.1 = "id" then .ok { outline with id := some pair.2 }
  else if pair.1 = "shape" then .ok { outline with shape := pair.2 }
  else if pair.1 = "coords" then do
    return { outline with coords := ← readCoordinates pair.2 }
  else if pair.1 = "title" then .ok { outline with title := some pair.2 }
  else .ok outline

/-- The outline that attributes give. -/
def ofAttributes (attributes : List (String × String)) : Except Failure Outline :=
  attributes.foldlM accept blank

/-- The area of an outline, if the side table lists its element. -/
def area? (side : SideTable) (outline : Outline) : Option Area := do
  let id ← outline.id
  let attributes ← side.get? id
  return ⟨id, outline.shape, outline.coords, attributes.className,
    attributes.tooltip.or outline.title⟩

end Outline

/-- The areas of an image map, in order. Coordinates are read in every element, whether or
not it is an area. -/
def ofImageMap (markup : String) (side : SideTable) : Except Failure (List Area) := do
  let outlines ← (elementsOf markup).mapM Outline.ofAttributes
  return outlines.filterMap (Outline.area? side)

end Areas

end DependencyDiagram
