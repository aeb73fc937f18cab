import DependencyDiagram.View.Description
import DependencyDiagram.Picture.Projection
import DependencyDiagram.Source

/-!
# Assembling views

A view is assembled in stages: its source is prepared, a filter is applied, the visible
graph is projected and drawn, and later a renderer's output is joined with the side table.
A failure of a stage is claimed by that stage and tells the view. The renderer is asked for
the picture before the image map.
-/

namespace DependencyDiagram

/-- The stages that can claim a failure. -/
inductive Stage where
  | hierarchy
  | visibility
  | projection
  | render
deriving DecidableEq, Repr

/-- The operation under which a stage claims failures. -/
def Stage.operation : Stage → String
  | hierarchy => "view::hierarchy"
  | visibility => "view::visibility"
  | projection => "view::projection"
  | render => "view::render"

/-- Claim the failures of a stage for a view. Where the failure came from stays among its
facts. -/
def inStage {α : Type} (stage : Stage) (kind : ViewKind) (result : Except Failure α) :
    Except Failure α :=
  result.mapError (fun failure => (failure.during stage.operation).noting "view" kind.word)

/-- Prepare the source of the view that the options are for. -/
def prepare (data : ViewData) (options : ViewOptions) : Except Failure GraphSource :=
  inStage .hierarchy options.viewType (buildSource options.viewType data options.hierarchy)

/-- What is shown for a projection. -/
def DiagramContent.ofProjection (options : ViewOptions) : Projection → DiagramContent
  | .image image side => .diagram (Drawing.ofImage image options) side image
  | .tooLarge text => .message text

/-- Filter, project and describe a prepared view. The filter and the options are kept with
what they led to, so a view can tell under which it was made. -/
def assemble (styles : Styles) (source : GraphSource) (filter : Filter) (options : ViewOptions) :
    Except Failure ViewDescription := do
  let graph ← inStage .visibility options.viewType
    (applyFilter source.built.tree source.edges filter)
  let projection ← inStage .projection options.viewType (project graph options styles)
  return ⟨options.viewType, .ofProjection options projection, filter, options⟩

/-- The failure for options that are for another view. -/
def foreignOptions (kind : ViewKind) (options : ViewOptions) : Failure :=
  ((Failure.ofKind .configInvalid ("options are for the " ++ options.viewType.word ++ " view")).during
    "view::build").noting "view" kind.word

/-- Build a view from data in one go. -/
def buildView (styles : Styles) (kind : ViewKind) (data : ViewData) (filter : Filter)
    (options : ViewOptions) : Except Failure ViewDescription :=
  if options.viewType = kind then do
    assemble styles (← prepare data options) filter options
  else .error (foreignOptions kind options)

/-- Ask the renderer for both formats of a diagram; a message has nothing to render. -/
def runRenderer (view : ViewDescription) (renderer : Renderer) :
    Except Failure (Option RenderOutput) :=
  match view.diagramText? with
  | none => .ok none
  | some text => do
    let svg ← inStage .render view.viewType (renderer text .svg)
    let map ← inStage .render view.viewType (renderer text .imageMap)
    return some ⟨svg, map⟩

/-- Join a renderer's output with the side table of the view. The picture itself is not
looked at; only the image map is read. -/
def attachRender (view : ViewDescription) (output : RenderOutput) :
    Except Failure (Option RenderedView) :=
  match view.side? with
  | none => .ok none
  | some side => do
    let areas ← inStage .render view.viewType (Areas.ofImageMap output.map side)
    return some ⟨output.svg, areas⟩

/-- Render a view and join the output with its side table. -/
def renderView (view : ViewDescription) (renderer : Renderer) :
    Except Failure (Option RenderedView) := do
  match ← runRenderer view renderer with
  | some output => attachRender view output
  | none => return none

end DependencyDiagram
