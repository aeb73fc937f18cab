import DependencyDiagram.Drawing.OfImage
import DependencyDiagram.Picture.SideTable
import DependencyDiagram.Areas.Area
import DependencyDiagram.Filter

/-!
# Described and rendered views

A described view holds what is shown of a view, together with the filter and the options
that led to it: a diagram, or a message in its place. A renderer turns the diagram's text
into a picture and an image map; the picture with the areas of the map is the rendered
view. A message has nothing to render.
-/

namespace DependencyDiagram

/-- What is shown of a view. Text, side table and image belong to one projection. -/
inductive DiagramContent where
  | diagram (text : String) (side : SideTable) (image : Image)
  | message (text : String)

/-- A view with the filter and the options that led to it. It is complete in itself, and
rendering it needs neither the data nor the store any more. -/
structure ViewDescription where
  viewType : ViewKind
  content : DiagramContent
  filter : Filter
  options : ViewOptions

namespace ViewDescription

/-- The text of the diagram, if the view has one. -/
def diagramText? (view : ViewDescription) : Option String :=
  match view.content with
  | .diagram text _ _ => some text
  | .message _ => none

/-- The side table of the diagram, if the view has one. -/
def side? (view : ViewDescription) : Option SideTable :=
  match view.content with
  | .diagram _ side _ => some side
  | .message _ => none

/-- The text of the diagram, or the message in its place. -/
def shownText (view : ViewDescription) : String :=
  match view.content with
  | .diagram text _ _ => text
  | .message text => text

end ViewDescription

/-- What a renderer is asked for. The picture and its image map are asked for one after the
other, for the same text. -/
inductive RenderFormat where
  | svg
  | imageMap
deriving DecidableEq, Repr

namespace RenderFormat

/-- The word for a format. -/
def word : RenderFormat → String
  | svg => "svg"
  | imageMap => "cmapx"

instance : Vocabulary RenderFormat where
  values := [svg, imageMap]
  word := word
  complete format := by cases format <;> decide
  distinct left right := by cases left <;> cases right <;> decide

end RenderFormat

/-- A renderer turns the text of a diagram into the asked format, or fails. It is a program
of its own, of which nothing is known but what it answers. -/
abbrev Renderer := String → RenderFormat → Except Failure String

/-- What a renderer made of one diagram. Both parts are taken as they come; the image map is
examined when the render is completed. -/
structure RenderOutput where
  svg : String
  map : String
deriving DecidableEq, Repr

/-- The picture of a view with its clickable areas. The areas are in the order of the image
map. -/
structure RenderedView where
  svg : String
  areas : List Area
deriving DecidableEq, Repr

end DependencyDiagram
