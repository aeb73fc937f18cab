import DependencyDiagram.Document.CustomNode
import DependencyDiagram.Grouping.Hierarchy
import DependencyDiagram.Edges

/-!
# Sources of views

A source is the tree and the edges of one view before anything is filtered. The references
view has a leaf per assembly; the methods view has a leaf per method and an edge per call
between methods that are loaded; the apis view keeps of these the calls that cross from one
assembly to another, with the methods at their ends; the custom view shows the graph that
the user supplied. Building starts from a fresh mint, so the same data gives the same
identifiers.

In the two views of methods the edges are built before the leaves, and in the references
view after them, which decides between two failures.
-/

namespace DependencyDiagram

/-- The tree and the edges of a view, before filtering. It depends on the data and on the
grouping only, so it can be kept while filters, labels and limits change. -/
structure GraphSource where
  built : BuiltTree
  edges : Edges
deriving DecidableEq

namespace Source

/-- Gather an edge towards a leaf from a client, a server and labels. -/
def gatherLeafEdge (edges : Edges) (edge : NodeId × NodeId × List String) : Edges :=
  edges.gather edge.1 edge.2.1 edge.2.2 true

/-- The names of all assemblies that are mentioned, in ascending order. -/
def assemblyNames (document : Reflection) : List String :=
  ascendingMembers (document.executables ++
    document.assemblies.entries.flatMap (fun entry => entry.1 :: entry.2.references))

/-- The references from assembly to assembly. -/
def referencePairs (document : Reflection) : List (String × String) :=
  document.assemblies.entries.flatMap (fun entry => entry.2.references.map (entry.1, ·))

/-- The edge of a reference. -/
def referenceEdge (pair : String × String) : Except Failure (NodeId × NodeId × List String) := do
  return (← NodeId.ofName .assembly pair.1, ← NodeId.ofName .assembly pair.2, [])

/-- The source of the references view. -/
def references (document : Reflection) (options : HierarchyOptions) : Except Failure GraphSource := do
  let (built, _) ← buildTree (assemblyNames document) document.executables .assembly options
    (.byAssembly document.assemblies.keys) Mint.fresh
  let edges ← (referencePairs document).mapM referenceEdge
  return ⟨built, edges.foldl gatherLeafEdge Edges.empty⟩

/-- A call between two methods that are loaded, labelled with the name of the one called. It
is listed as often as the caller's method lists it. -/
structure Call where
  caller : MethodRef
  callee : MethodRef
  label : String
deriving DecidableEq

/-- Every method of a document with its assembly and token. -/
def allMethods (document : Reflection) : List (MethodRef × MethodInfo) :=
  document.methods.entries.flatMap (fun assembly =>
    assembly.2.entries.map (fun entry => (⟨assembly.1, entry.1⟩, entry.2)))

/-- The calls of a document. Calls to methods that are not loaded are left out. -/
def loadedCalls (document : Reflection) : List Call :=
  (allMethods document).flatMap (fun (caller, info) =>
    info.calls.filterMap (fun callee =>
      (document.method? callee.assembly callee.token).map
        (fun called => ⟨caller, callee, called.name⟩)))

/-- The call leads from one assembly to another. -/
def Call.crosses (call : Call) : Bool := call.caller.assembly != call.callee.assembly

/-- The identifier of a method. -/
def methodId (method : MethodRef) : Except Failure NodeId :=
  NodeId.ofMember .method method.assembly method.token.toNat

/-- The edge of a call. -/
def callEdge (call : Call) : Except Failure (NodeId × NodeId × List String) := do
  return (← methodId call.caller, ← methodId call.callee, [call.label])

/-- The failure for a method whose declaring type is not in the document. -/
def missingType (method : MethodRef) (info : MethodInfo) : Failure :=
  ((Failure.notFound ("type " ++ method.assembly ++ "|" ++ toString info.declaringType.toNat)).during
    "views::method_leaf").noting "method" info.name

/-- The groups for the prefixes of a type's namespace; a type without one has none. -/
def namespacePath (info : TypeInfo) : List Segment :=
  match info.nameSpace with
  | none => []
  | some space => if space = "" then [] else Clustering.prefixPath '.' info.fullName

/-- The leaf of a method, below its assembly, its namespaces and its type. Methods of
different assemblies may have the same label, so the unique name begins with the assembly. -/
def methodLeaf (document : Reflection) (method : MethodRef) (info : MethodInfo) :
    Except Failure LeafSpec :=
  match (document.assemblies.get? method.assembly).bind
      (fun assembly => assembly.typeWithToken? info.declaringType) with
  | none => .error (missingType method info)
  | some declaring => do
    let assemblyId ← NodeId.ofName .assembly method.assembly
    let typeId ← NodeId.ofMember .typeDefinition method.assembly declaring.token.toNat
    let id ← methodId method
    let label := declaring.fullName ++ "." ++ info.name
    return {
      id := id
      name := method.assembly ++ "/" ++ label
      label := label
      path := (Segment.bucket method.assembly).withId assemblyId ::
        namespacePath declaring ++ [(Segment.prefixed declaring.fullName).withId typeId] }

/-- The source of a view of methods, from the calls it shows and the methods it lists. Two
calls from one method to another are gathered in one edge with a label for each. -/
def ofCalls (document : Reflection) (calls : List Call) (listed : List (MethodRef × MethodInfo))
    (options : HierarchyOptions) : Except Failure GraphSource := do
  let edges ← calls.mapM callEdge
  let leaves ← listed.mapM (fun (method, info) => methodLeaf document method info)
  let (built, _) ← buildHierarchy leaves options Mint.fresh
  return ⟨built, edges.foldl gatherLeafEdge Edges.empty⟩

/-- The source of the methods view. -/
def methods (document : Reflection) (options : HierarchyOptions) : Except Failure GraphSource :=
  ofCalls document (loadedCalls document) (allMethods document) options

/-- The source of the apis view. -/
def apis (document : Reflection) (options : HierarchyOptions) : Except Failure GraphSource :=
  let calls := (loadedCalls document).filter Call.crosses
  let ends := calls.flatMap (fun call => [call.caller, call.callee])
  ofCalls document calls ((allMethods document).filter (fun entry => ends.contains entry.1)) options

/-- The layers of the nodes that have any. A repeated node takes its last layer. -/
def layersOf (nodes : List CustomNode) : Table String (List String) :=
  Table.ofList ((nodes.map (fun node => (node.id, node.layerTags))).filter
    (fun entry => !entry.2.isEmpty))

/-- The failure for a dependency on a node that does not exist. -/
def missingDependency (node : CustomNode) (dependency : String) : Failure :=
  ((Failure.notFound dependency).during "views::custom").noting "node" node.id

/-- The identifier of a dependency, which must be one of the known nodes. -/
def dependencyId (known : List String) (node : CustomNode) (dependency : String) :
    Except Failure NodeId :=
  if dependency ∈ known then NodeId.ofName .customLeaf dependency
  else .error (missingDependency node dependency)

/-- The leaf of a node together with its edges. -/
def customLeaf (known : List String) (clustering : Clustering) (node : CustomNode) :
    Except Failure (LeafSpec × List (NodeId × NodeId × List String)) := do
  let id ← NodeId.ofName .customLeaf node.id
  let servers ← node.dependencies.mapM (dependencyId known node)
  let path ← clustering.path node.id
  return (⟨id, node.id, node.label.getD node.id, path⟩, servers.map (fun server => (id, server, [])))

/-- The source of the custom view. -/
def custom (nodes : List CustomNode) (options : HierarchyOptions) : Except Failure GraphSource := do
  let known := nodes.map CustomNode.id
  let leaves ← nodes.mapM (customLeaf known (.byLayer "layer" (layersOf nodes)))
  let (built, _) ← buildHierarchy (leaves.map Prod.fst) options Mint.fresh
  return ⟨built, (leaves.flatMap Prod.snd).foldl gatherLeafEdge Edges.empty⟩

end Source

/-- The source of a view. -/
def buildSource (kind : ViewKind) (data : ViewData) (options : HierarchyOptions) :
    Except Failure GraphSource :=
  match kind with
  | .references => Source.references data.reflection options
  | .methods => Source.methods data.reflection options
  | .apis => Source.apis data.reflection options
  | .custom => Source.custom data.custom options

end DependencyDiagram
