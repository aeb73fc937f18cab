import DependencyDiagram.CommandLine.Options
import DependencyDiagram.CommandLine.Files
import DependencyDiagram.Store.Loader
import DependencyDiagram.View.Assembly

/-!
# Runs

A run reads the reflection document and, if one is named, the custom graph; builds the one
view it is asked for; writes the side table, if a place is named for it; and answers with
the text to show, which is the diagram or the message in its place. Reading precedes
everything else, and a failure ends the run before anything further is read or written.
-/

namespace DependencyDiagram.Run

/-- The failure for a custom graph that is no list of nodes. -/
def unreadableCustom (path : String) : Failure :=
  (((Failure.ofKind .deserializationFailed "custom graph is not a list of nodes").during
    "cli::load_custom").noting "path" path).withSource

/-- The custom graph in the text of a file. -/
def customOf (path text : String) : Except Failure (List CustomNode) :=
  match CustomNode.readAll? text with
  | some nodes => .ok nodes
  | none => .error (unreadableCustom path)

/-- Build the view of a run from its data. -/
def describe (options : RunOptions) (data : ViewData) : Except Failure ViewDescription := do
  let viewOptions := options.display.toViewOptions options.view options.filter.parentEdges
  let source ← prepare data viewOptions
  let filter ← options.filter.apply (Filter.allVisible source.built.tree)
  assemble Styles.plain source filter viewOptions

/-- The text of a view's side table; a message has an empty one. -/
def sideText (view : ViewDescription) : String :=
  match view.side? with
  | some side => (SideTable.toJson side).indented
  | none => (Json.object []).indented

variable {m : Type → Type} [Monad m] (explain : String → String)

/-- Read the data of a run. -/
def loadData (files : FileAccess m) (options : RunOptions) : ExceptT Failure m ViewData := do
  let document ← ExceptT.mk
    (Prod.fst <$> Loader.load explain Store.empty options.input (files.read options.input))
  match options.custom with
  | none => return ⟨document, []⟩
  | some path =>
    let text ← ExceptT.mk (files.read path)
    return ⟨document, ← ExceptT.mk (pure (customOf path text))⟩

/-- Carry out a run and answer with the text to show. The side table is written before the
text is answered, so a run that cannot write it answers with no text. -/
def perform (files : FileAccess m) (options : RunOptions) : ExceptT Failure m String := do
  let data ← loadData explain files options
  let view ← ExceptT.mk (pure (describe options data))
  if let some path := options.sideTable then
    ExceptT.mk (files.write path (sideText view))
  return view.shownText

end DependencyDiagram.Run
