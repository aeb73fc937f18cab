import DependencyDiagram.Proofs.Drawing.DrawnGraph

/-!
# Reading drawings of images back

From the graph that a drawing is read as, and from nothing else, the image is recovered as far
as it is drawn: the name and the settings of the graph, the boxes and frames as they nest, with
identifiers, labels and shapes, and the edges in order with identifiers, tooltips, labels and
frames. What only arranges the picture is marked as invisible and passed over.
-/

namespace DependencyDiagram

namespace Drawing

/-- The mark of what only arranges the picture. Layout programs know this mark; an element that bears it
takes room and is not seen. -/
def isHidden (attributes : List (String × String)) : Bool :=
  attributes.lookup "style" == some "invis"

/-- A box or a frame as a drawing shows it, by the name of its node or cluster and the attributes it is
given. Attributes that are not written are absent here and not empty, so that leaving one out would be
noticed. -/
inductive Shown where
  | box (name : String) (id label shape : Option String)
  | frame (name : String) (id label : Option String) (children : List Shown)

/-- An edge as a drawing shows it, by the names of the nodes at its ends and the attributes it is given.
The frames are the clusters at whose borders the edge is cut off. -/
structure ShownEdge where
  tail : String
  head : String
  id : Option String
  tooltip : Option String
  label : Option String
  tailFrame : Option String
  headFrame : Option String
deriving DecidableEq, Repr

namespace Statement

/-- A setting as its key and value. -/
def setting? : Statement → Option (String × String)
  | setting key value => some (key, value)
  | _ => none

/-- The defaults for nodes. -/
def nodeDefaults? : Statement → Option (List (String × String))
  | nodeDefaults attributes => some attributes
  | _ => none

/-- An edge that is shown. -/
def shownEdge? : Statement → Option ShownEdge
  | edge tail head attributes =>
    if isHidden attributes then none
    else some ⟨tail, head, attributes.lookup "id", attributes.lookup "tooltip",
      attributes.lookup "label", attributes.lookup "ltail", attributes.lookup "lhead"⟩
  | _ => none

/-- The settings among statements. -/
def settings (statements : List Statement) : List (String × String) :=
  statements.filterMap setting?

mutual

/-- What a statement shows. -/
def shown : Statement → List Shown
  | node name attributes =>
    if isHidden attributes then []
    else [.box name (attributes.lookup "id") (attributes.lookup "label")
      (attributes.lookup "shape")]
  | cluster name body =>
    [.frame name ((settings body).lookup "id") ((settings body).lookup "label") (shownAll body)]
  | _ => []

/-- What statements show one after the other. -/
def shownAll : List Statement → List Shown
  | [] => []
  | statement :: rest => shown statement ++ shownAll rest

end

/-- Statements show what each of them shows. -/
theorem shownAll_eq (statements : List Statement) :
    shownAll statements = statements.flatMap shown := by
  induction statements with
  | nil => rfl
  | cons statement rest inductionHypothesis =>
    rw [shownAll, List.flatMap_cons, inductionHypothesis]

/-- Statements show what those in front and those behind show. -/
theorem shownAll_append (first second : List Statement) :
    shownAll (first ++ second) = shownAll first ++ shownAll second := by
  simp only [shownAll_eq, List.flatMap_append]

/-- Statements show nothing where none of them does. -/
theorem shownAll_eq_nil {statements : List Statement}
    (none : ∀ statement ∈ statements, statement.shown = []) : shownAll statements = [] := by
  rw [shownAll_eq, List.flatMap_eq_nil_iff]
  exact none

end Statement

namespace Digraph

/-- The settings of the graph. -/
def settings (graph : Digraph) : List (String × String) := Statement.settings graph.body

/-- The defaults for nodes that the graph gives. -/
def nodeDefaults (graph : Digraph) : List (List (String × String)) :=
  graph.body.filterMap Statement.nodeDefaults?

/-- The boxes and frames that the graph shows. -/
def forest (graph : Digraph) : List Shown := Statement.shownAll graph.body

/-- The edges that the graph shows, at any depth. -/
def shownEdges (graph : Digraph) : List ShownEdge :=
  (Statement.flattenAll graph.body).filterMap Statement.shownEdge?

end Digraph

end Drawing

open Drawing

namespace ImageNode

mutual

/-- The box or frame as it is to be shown. -/
def shown : ImageNode → Shown
  | leaf box | group box => .box box.id.encode (some box.id.encode) (some box.label) (some box.shape.word)
  | cluster id label children =>
    .frame (clusterName id) (some id.encode) (some label) (shownAll children)

/-- The boxes and frames of a level as they are to be shown. -/
def shownAll : List ImageNode → List Shown
  | [] => []
  | node :: rest => shown node :: shownAll rest

end

end ImageNode

/-- The edge as it is to be shown. -/
def Image.shownEdge (image : Image) (edge : ImageEdge) : ShownEdge where
  tail := endName image edge.client
  head := endName image edge.server
  id := some edge.id.text
  tooltip := some edge.tooltip
  label := edge.label
  tailFrame := edge.tail.map clusterName
  headFrame := edge.head.map clusterName

/-- A graph gives an image back as far as it is drawn. On the left stands what is read from the graph,
and on the right what the image has. Nothing on the left mentions the image, so a reader who has the text
alone gets all of this. -/
structure Drawing.Digraph.Recovers (graph : Digraph) (image : Image) (options : ViewOptions) :
    Prop where
  name : graph.name = options.viewType.word
  settings : graph.settings = (if image.hasParentEdges then [("compound", "true")] else []) ++
    [("rankdir", if options.verticalAlign then "TB" else "LR")]
  compound : (graph.settings.lookup "compound").isSome = image.hasParentEdges
  nodeDefaults : graph.nodeDefaults = [[("fontname", "Helvetica"), ("fontsize", "10")]]
  forest : graph.forest = ImageNode.shownAll image.nodes
  edges : graph.shownEdges = image.edges.map image.shownEdge

namespace Drawing

/-- Settings are found among the statements of a body. -/
theorem settings_settingStatements (attributes : List (String × String)) :
    Statement.settings (settingStatements attributes) = attributes := by
  induction attributes with
  | nil => rfl
  | cons pair rest inductionHypothesis =>
    change pair :: Statement.settings (settingStatements rest) = pair :: rest
    rw [inductionHypothesis]

/-- Settings show nothing. -/
theorem shown_settingStatement {attributes : List (String × String)} {statement : Statement}
    (listed : statement ∈ settingStatements attributes) : statement.shown = [] := by
  obtain ⟨pair, _, rfl⟩ := List.mem_map.mp listed
  rfl

/-- The invisible node of an empty frame shows nothing. -/
theorem shownAll_anchorStatements (id : NodeId) (children : List ImageNode) :
    Statement.shownAll ((anchorLines id children).flatMap Line.statements) = [] := by
  refine Statement.shownAll_eq_nil (fun statement listed => ?_)
  rw [mem_anchorStatements listed]
  rfl

/-- The edges of a chain show no box and no frame. -/
theorem shownAll_chainStatements (vertical : Bool) (nodes : List ImageNode) :
    Statement.shownAll ((chainLines vertical nodes).flatMap Line.statements) = [] := by
  refine Statement.shownAll_eq_nil (fun statement listed => ?_)
  obtain ⟨tail, _, head, _, rfl⟩ := mem_chainStatements listed
  rfl

/-- The statements of a node are a single node or a single cluster. -/
theorem setting?_of_mem_nodeStatements {vertical : Bool} {node : ImageNode} {statement : Statement}
    (listed : statement ∈ nodeStatements vertical node) :
    statement.setting? = none ∧ statement.nodeDefaults? = none := by
  cases node <;> rw [nodeStatements] at listed <;> obtain rfl := List.mem_singleton.mp listed <;>
    exact ⟨rfl, rfl⟩

/-- The statements of a level are nodes, clusters and edges. -/
theorem setting?_of_mem_levelStatements {vertical : Bool} {nodes : List ImageNode}
    {statement : Statement} (listed : statement ∈ levelStatements vertical nodes) :
    statement.setting? = none ∧ statement.nodeDefaults? = none := by
  rcases List.mem_append.mp listed with inside | chain
  · clear listed
    induction nodes with
    | nil => cases inside
    | cons node rest inductionHypothesis =>
      rw [eachNodeStatements] at inside
      exact (List.mem_append.mp inside).elim setting?_of_mem_nodeStatements inductionHypothesis
  · obtain ⟨tail, _, head, _, rfl⟩ := mem_chainStatements chain
    exact ⟨rfl, rfl⟩

/-- The settings inside the cluster of a frame are the attributes of the frame. -/
theorem settings_frame (vertical : Bool) (id : NodeId) (label : String)
    (children : List ImageNode) :
    Statement.settings (settingStatements (frameAttributes id label) ++
        (anchorLines id children).flatMap Line.statements ++ levelStatements vertical children) =
      frameAttributes id label := by
  have anchor : Statement.settings ((anchorLines id children).flatMap Line.statements) = [] := by
    refine List.filterMap_eq_nil_iff.mpr (fun statement listed => ?_)
    rw [mem_anchorStatements listed]
    rfl
  have level : Statement.settings (levelStatements vertical children) = [] :=
    List.filterMap_eq_nil_iff.mpr
      (fun statement listed => (setting?_of_mem_levelStatements listed).1)
  have own := settings_settingStatements (frameAttributes id label)
  unfold Statement.settings at anchor level own ⊢
  rw [List.filterMap_append, List.filterMap_append, anchor, level, own, List.append_nil,
    List.append_nil]

mutual

/-- The statements of a node show the node. -/
theorem shownAll_nodeStatements (vertical : Bool) (node : ImageNode) :
    Statement.shownAll (nodeStatements vertical node) = [node.shown] := by
  cases node with
  | leaf box => rfl
  | group box => rfl
  | cluster id label children =>
    have settings := settings_frame vertical id label children
    have own : Statement.shownAll (settingStatements (frameAttributes id label)) = [] :=
      Statement.shownAll_eq_nil (fun statement => shown_settingStatement)
    have inside := shownAll_eachNodeStatements vertical children
    have identified : (frameAttributes id label).lookup "id" = some id.encode := rfl
    have labelled : (frameAttributes id label).lookup "label" = some label := rfl
    rw [levelStatements] at settings
    rw [nodeStatements, Statement.shownAll, Statement.shown, settings, identified, labelled,
      Statement.shownAll_append, Statement.shownAll_append, Statement.shownAll_append, own, inside,
      shownAll_anchorStatements, shownAll_chainStatements, Statement.shownAll, ImageNode.shown]
    simp only [List.append_nil, List.nil_append]

/-- The statements of a level show the nodes of the level. -/
theorem shownAll_eachNodeStatements (vertical : Bool) (nodes : List ImageNode) :
    Statement.shownAll (eachNodeStatements vertical nodes) = ImageNode.shownAll nodes := by
  cases nodes with
  | nil => rfl
  | cons node rest =>
    rw [eachNodeStatements, Statement.shownAll_append, shownAll_nodeStatements vertical node,
      shownAll_eachNodeStatements vertical rest, ImageNode.shownAll, List.singleton_append]

end

/-- The statements that a node adds of its own show no edge. -/
theorem shownEdge?_of_mem_ownStatements {vertical : Bool} {node : ImageNode} {statement : Statement}
    (listed : statement ∈ ownStatements vertical node) : statement.shownEdge? = none := by
  cases node with
  | leaf box =>
    obtain rfl := List.mem_singleton.mp listed
    rfl
  | group box =>
    obtain rfl := List.mem_singleton.mp listed
    rfl
  | cluster id label children =>
    simp only [ownStatements, nodeStatements, List.mem_append, List.mem_singleton] at listed
    rcases listed with ((rfl | setting) | anchor) | chain
    · rfl
    · obtain ⟨pair, _, rfl⟩ := List.mem_map.mp setting
      rfl
    · rw [mem_anchorStatements anchor]
      rfl
    · obtain ⟨tail, _, head, _, rfl⟩ := mem_chainStatements chain
      rfl

/-- The statements of the nodes show no edge. -/
theorem shownEdges_levelStatements (vertical : Bool) (nodes : List ImageNode) :
    (Statement.flattenAll (levelStatements vertical nodes)).filterMap Statement.shownEdge? = [] := by
  refine List.filterMap_eq_nil_iff.mpr (fun statement listed => ?_)
  have spread := (flattenAll_levelStatements vertical nodes).mem_iff.mp listed
  rcases List.mem_append.mp spread with own | chain
  · obtain ⟨node, _, added⟩ := List.mem_flatMap.mp own
    exact shownEdge?_of_mem_ownStatements added
  · obtain ⟨tail, _, head, _, rfl⟩ := mem_chainStatements chain
    rfl

/-- The statement of an edge shows the edge. -/
theorem shownEdge?_edgeLine (image : Image) (edge : ImageEdge) :
    (edgeLine image edge).statements.filterMap Statement.shownEdge? = [image.shownEdge edge] := by
  rw [edgeLine, Image.shownEdge]
  cases edge.label <;> cases edge.tail <;> cases edge.head <;> rfl

/-- The statements of the edges show the edges. -/
theorem shownEdges_edgeStatements (image : Image) :
    (edgeStatements image).filterMap Statement.shownEdge? = image.edges.map image.shownEdge := by
  rw [edgeStatements]
  induction image.edges with
  | nil => rfl
  | cons edge rest inductionHypothesis =>
    rw [List.map_cons, List.flatMap_cons, List.filterMap_append, shownEdge?_edgeLine,
      inductionHypothesis, List.map_cons, List.singleton_append]

/-- The statements in front of the nodes show nothing. -/
theorem shown_preambleStatement {image : Image} {options : ViewOptions} {statement : Statement}
    (listed : statement ∈ preambleStatements image options) :
    statement.shown = [] ∧ statement.shownEdge? = none := by
  simp only [preambleStatements, preamble, List.mem_flatMap, List.mem_append, List.mem_cons,
    List.not_mem_nil, or_false] at listed
  obtain ⟨line, compound | rfl | rfl | rfl, here⟩ := listed
  · split at compound
    · obtain rfl := List.mem_singleton.mp compound
      obtain rfl := List.mem_singleton.mp here
      exact ⟨rfl, rfl⟩
    · cases compound
  · obtain rfl := List.mem_singleton.mp here
    exact ⟨rfl, rfl⟩
  · obtain rfl := List.mem_singleton.mp here
    exact ⟨rfl, rfl⟩
  · cases here

/-- The statement of an edge is neither a setting nor a box or a frame. -/
theorem shown_edgeStatement {image : Image} {statement : Statement}
    (listed : statement ∈ edgeStatements image) :
    statement.shown = [] ∧ statement.setting? = none ∧ statement.nodeDefaults? = none := by
  obtain ⟨line, present, here⟩ := List.mem_flatMap.mp listed
  obtain ⟨edge, _, rfl⟩ := List.mem_map.mp present
  obtain rfl := List.mem_singleton.mp here
  exact ⟨rfl, rfl, rfl⟩

/-- What is found statement by statement, where the nodes and edges do not count, is found in
front of the nodes. -/
theorem filterMap_digraphOf {Found : Type} (image : Image) (options : ViewOptions)
    (read : Statement → Option Found)
    (level : ∀ statement ∈ levelStatements options.verticalAlign image.nodes, read statement = none)
    (edges : ∀ statement ∈ edgeStatements image, read statement = none) :
    (digraphOf image options).body.filterMap read =
      (preambleStatements image options).filterMap read := by
  rw [digraphOf, List.filterMap_append, List.filterMap_append,
    List.filterMap_eq_nil_iff.mpr level, List.filterMap_eq_nil_iff.mpr edges, List.append_nil,
    List.append_nil]

/-- The settings of an image's graph are those in front of the nodes. -/
theorem settings_digraphOf (image : Image) (options : ViewOptions) :
    (digraphOf image options).settings =
      (if image.hasParentEdges then [("compound", "true")] else []) ++
        [("rankdir", if options.verticalAlign then "TB" else "LR")] := by
  have front := filterMap_digraphOf image options Statement.setting?
    (fun statement listed => (setting?_of_mem_levelStatements listed).1)
    (fun statement listed => (shown_edgeStatement listed).2.1)
  rw [Digraph.settings, Statement.settings, front, preambleStatements, preamble]
  split <;> rfl

/-- The defaults for nodes of an image's graph are those in front of the nodes. -/
theorem nodeDefaults_digraphOf (image : Image) (options : ViewOptions) :
    (digraphOf image options).nodeDefaults = [[("fontname", "Helvetica"), ("fontsize", "10")]] := by
  have front := filterMap_digraphOf image options Statement.nodeDefaults?
    (fun statement listed => (setting?_of_mem_levelStatements listed).2)
    (fun statement listed => (shown_edgeStatement listed).2.2)
  rw [Digraph.nodeDefaults, front, preambleStatements, preamble]
  split <;> rfl

/-- An image's graph shows the boxes and frames of the image. -/
theorem forest_digraphOf (image : Image) (options : ViewOptions) :
    (digraphOf image options).forest = ImageNode.shownAll image.nodes := by
  have front : Statement.shownAll (preambleStatements image options) = [] :=
    Statement.shownAll_eq_nil (fun statement listed => (shown_preambleStatement listed).1)
  have edges : Statement.shownAll (edgeStatements image) = [] :=
    Statement.shownAll_eq_nil (fun statement listed => (shown_edgeStatement listed).1)
  rw [Digraph.forest, digraphOf, levelStatements, Statement.shownAll_append,
    Statement.shownAll_append, Statement.shownAll_append, front, edges,
    shownAll_eachNodeStatements, shownAll_chainStatements, List.nil_append, List.append_nil,
    List.append_nil]

/-- An image's graph shows the edges of the image. -/
theorem shownEdges_digraphOf (image : Image) (options : ViewOptions) :
    (digraphOf image options).shownEdges = image.edges.map image.shownEdge := by
  have front : (preambleStatements image options).filterMap Statement.shownEdge? = [] :=
    List.filterMap_eq_nil_iff.mpr (fun statement listed => (shown_preambleStatement listed).2)
  rw [Digraph.shownEdges, flattenAll_digraphOf, List.filterMap_append, List.filterMap_append, front,
    shownEdges_levelStatements, shownEdges_edgeStatements, List.nil_append, List.nil_append]

/-- The text of every image's drawing is read back, with exactly the statements that stand for the image,
and gives the image back as far as it is drawn. There are no conditions, neither on identifiers nor on
the characters of labels, and the image need not come from a graph. -/
theorem drawing_reads_back (image : Image) (options : ViewOptions) :
    Digraph.read? (ofImage image options) = some (digraphOf image options) ∧
      (digraphOf image options).Recovers image options := by
  refine ⟨read?_ofImage image options, ?_⟩
  have settings := settings_digraphOf image options
  exact {
    name := rfl
    settings := settings
    compound := by
      rw [settings]
      cases image.hasParentEdges <;> rfl
    nodeDefaults := nodeDefaults_digraphOf image options
    forest := forest_digraphOf image options
    edges := shownEdges_digraphOf image options }

end Drawing

end DependencyDiagram
