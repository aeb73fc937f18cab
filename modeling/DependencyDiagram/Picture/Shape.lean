import DependencyDiagram.Identity.NodeTable

/-!
# Shapes of boxes

Every box has a shape. Without an override the shape follows from what the box's node
identifies and from whether it is a leaf or a collapsed group. Overrides are given per
identifier, and a later one replaces an earlier one.
-/

namespace DependencyDiagram

/-- The outlines that boxes can have. -/
inductive Shape where
  | box
  | box3d
  | component
  | ellipse
  | folder
  | note
  | tab
deriving DecidableEq, Repr

namespace Shape

/-- The word for a shape. -/
def word : Shape → String
  | box => "box"
  | box3d => "box3d"
  | component => "component"
  | ellipse => "ellipse"
  | folder => "folder"
  | note => "note"
  | tab => "tab"

instance : Vocabulary Shape where
  values := [box, box3d, component, ellipse, folder, note, tab]
  word := word
  complete shape := by cases shape <;> decide
  distinct left right := by cases left <;> cases right <;> decide

/-- The shape of a collapsed group without an override. -/
def ofGroup (id : NodeId) : Shape :=
  match id.tag with
  | .member .typeDefinition => box3d
  | _ => folder

/-- The shape of a leaf without an override. -/
def ofLeaf (id : NodeId) : Shape :=
  match id.tag with
  | .named .assembly => component
  | .named .nameSpace | .named .customFolder => tab
  | .member .method => ellipse
  | .member .exceptionType | .artificial .memberException => note
  | _ => box

/-- The shape of a box without an override. -/
def standard (id : NodeId) (isLeaf : Bool) : Shape := if isLeaf then ofLeaf id else ofGroup id

end Shape

/-- Overrides of shapes. They are kept by identifier, so they hold for a node in every view,
as a leaf and as a collapsed group. -/
structure Styles where
  shapes : Table NodeId Shape
deriving DecidableEq

namespace Styles

/-- No override at all. -/
def plain : Styles := ⟨Table.empty⟩

instance : Inhabited Styles := ⟨plain⟩

/-- Override the shape of one node. -/
def setShape (styles : Styles) (id : NodeId) (shape : Shape) : Styles :=
  ⟨styles.shapes.put id shape⟩

/-- The shape of a box. -/
def shape (styles : Styles) (id : NodeId) (isLeaf : Bool) : Shape :=
  (styles.shapes.get? id).getD (Shape.standard id isLeaf)

end Styles

end DependencyDiagram
