import DependencyDiagram.Proofs.Drawing.ReadBack
import DependencyDiagram.Proofs.Identity.Codec
import DependencyDiagram.Proofs.Picture.Layout
import Mathlib.Data.List.Forall2

/-!
# Where the edges of drawings attach

An edge of a drawing attaches to a node that stands for its end. A box stands for itself; for a frame
stands its first box, or else an invisible node. The invisible node is declared only in a frame that
holds nothing at all, so it is missing in a hollow frame, which holds other frames but no box at any
depth. Where no end of an edge is a hollow frame, every edge attaches to a declared node, and where an
end is a frame, to a node inside the frame's own cluster. The names of nodes and of clusters are unique,
so there is only one such node and one such cluster.

A layout program does not object to an edge on a node that was not declared. It makes up a node of that
name outside of all clusters and draws it, and so the defect shows only in the picture.
-/

namespace DependencyDiagram

namespace ImageNode

/-- The first box inside a level is one of the boxes inside it, and is missing only where all
nodes inside are frames. -/
theorem firstAnchor?_cases (nodes : List ImageNode) :
    (∃ box ∈ flattenAll nodes, box.isCluster = false ∧ firstAnchor? nodes = some box.id) ∨
      (∀ inner ∈ flattenAll nodes, inner.isCluster = true) ∧ firstAnchor? nodes = none := by
  rw [firstAnchor?_eq]
  cases first : (flattenAll nodes).find? (fun inner => !inner.isCluster) with
  | none =>
    refine Or.inr ⟨fun inner listed => ?_, rfl⟩
    simpa using List.find?_eq_none.mp first inner listed
  | some box =>
    have single : box.isCluster = false := by simpa using List.find?_some first
    exact Or.inl ⟨box, List.mem_of_find?_eq_some first, single, rfl⟩

/-- A frame that holds other frames, but no box at any depth. A frame without children is not hollow in
this sense, since the invisible node is declared in it. -/
def isHollow : ImageNode → Bool
  | cluster _ _ children => !children.isEmpty && (flattenAll children).all isCluster
  | _ => false

/-- A hollow frame has no first box. -/
theorem firstAnchor?_of_isHollow {node : ImageNode} (hollow : node.isHollow = true) :
    ∃ id label children, node = cluster id label children ∧ children ≠ [] ∧
      firstAnchor? children = none := by
  cases node with
  | leaf box => cases hollow
  | group box => cases hollow
  | cluster id label children =>
    rw [isHollow, Bool.and_eq_true, Bool.not_eq_true', List.isEmpty_eq_false_iff,
      List.all_eq_true] at hollow
    refine ⟨id, label, children, rfl, hollow.1, ?_⟩
    rcases firstAnchor?_cases children with ⟨box, inside, single, _⟩ | ⟨_, missing⟩
    · rw [hollow.2 box inside] at single
      cases single
    · exact missing

/-- A frame without a first box that is not hollow has no children. -/
theorem eq_nil_of_not_isHollow {id : NodeId} {label : String} {children : List ImageNode}
    (frames : ∀ inner ∈ flattenAll children, inner.isCluster = true)
    (filled : (cluster id label children).isHollow ≠ true) : children = [] := by
  by_contra some
  refine filled ?_
  rw [isHollow, Bool.and_eq_true, Bool.not_eq_true', List.isEmpty_eq_false_iff, List.all_eq_true]
  exact ⟨some, frames⟩

end ImageNode

namespace Image

/-- The identifiers of all nodes of the image. -/
def ids (image : Image) : List NodeId := image.allNodes.map ImageNode.id

/-- The nodes are those on top of the image, or those directly inside a frame. Chains of invisible edges
lead along one level and never from one level to another. -/
def IsLevel (image : Image) (nodes : List ImageNode) : Prop :=
  nodes = image.nodes ∨ ∃ id label, .cluster id label nodes ∈ image.allNodes

/-- There is a frame with the identifier. -/
def IsFrame (image : Image) (id : NodeId) : Prop :=
  ∃ label children, .cluster id label children ∈ image.allNodes

/-- There is a hollow frame with the identifier. -/
def IsHollow (image : Image) (id : NodeId) : Prop :=
  ∃ node ∈ image.allNodes, node.id = id ∧ node.isHollow = true

instance (image : Image) (id : NodeId) : Decidable (image.IsHollow id) :=
  inferInstanceAs (Decidable (∃ node ∈ image.allNodes, node.id = id ∧ node.isHollow = true))

variable {image : Image}

/-- A level is part of the image, in the same order. -/
theorem IsLevel.sublist {nodes : List ImageNode} (level : image.IsLevel nodes) :
    nodes.Sublist image.allNodes := by
  rcases level with rfl | ⟨id, label, listed⟩
  · exact ImageNode.sublist_flattenAll image.nodes
  · refine (ImageNode.sublist_flattenAll nodes).trans (List.Sublist.trans ?_
      (ImageNode.flatten_sublist_flattenAll image.nodes listed))
    rw [ImageNode.flatten]
    exact List.sublist_cons_self _ _

/-- Where identifiers are distinct, each belongs to one node. -/
theorem eq_of_id_eq (distinct : image.ids.Nodup) {first second : ImageNode}
    (left : first ∈ image.allNodes) (right : second ∈ image.allNodes) (same : first.id = second.id) :
    first = second :=
  List.inj_on_of_nodup_map distinct left right same

/-- Where identifiers are distinct, every node is found by its own. -/
theorem find?_id (distinct : image.ids.Nodup) {node : ImageNode} (listed : node ∈ image.allNodes) :
    image.find? node.id = some node := by
  have present : (image.find? node.id).isSome := by
    rw [find?, List.find?_isSome]
    exact ⟨node, listed, decide_eq_true rfl⟩
  obtain ⟨found, here⟩ := Option.isSome_iff_exists.mp present
  rw [find?] at here ⊢
  have same := List.find?_some here
  rw [here, eq_of_id_eq distinct (List.mem_of_find?_eq_some here) listed (of_decide_eq_true same)]

end Image

namespace Drawing

namespace Statement

/-- The name of a node. -/
def nodeName? : Statement → Option String
  | node name _ => some name
  | _ => none

/-- The names of the nodes at the ends of an edge. -/
def ends? : Statement → Option (String × String)
  | edge tail head _ => some (tail, head)
  | _ => none

/-- The names of the nodes that are declared among statements, at any depth. -/
def nodeNames (statements : List Statement) : List String :=
  (flattenAll statements).filterMap nodeName?

end Statement

namespace Digraph

/-- The names of the nodes that the graph declares, at any depth. -/
def nodeNames (graph : Digraph) : List String := Statement.nodeNames graph.body

/-- The names at the ends of the edges of the graph, at any depth, shown or not. The invisible edges
between neighbouring boxes are among them. -/
def ends (graph : Digraph) : List (String × String) :=
  (Statement.flattenAll graph.body).filterMap Statement.ends?

/-- The clusters of the graph, at any depth, by name and body. Clusters inside a cluster are listed as
well, each with all that is written inside it. -/
def blocks (graph : Digraph) : List (String × List Statement) :=
  (Statement.flattenAll graph.body).filterMap Statement.block?

/-- An edge that ends on a node of the image attaches to a declared node, which lies inside the frame's
own cluster where the end is a frame. Where the end is a box, the name is that of the box, and being
declared is all there is to say. -/
structure AttachesEnd (graph : Digraph) (image : Image) (id : NodeId) (name : String) : Prop where
  declared : name ∈ graph.nodeNames
  inside : image.IsFrame id →
    ∃ body, (clusterName id, body) ∈ graph.blocks ∧ name ∈ Statement.nodeNames body

/-- Every edge of a graph attaches to declared nodes, and every edge of the image to nodes that stand for
its ends. The first part is about the graph alone and covers the invisible edges too. The second part
compares the graph with the image from which it was drawn, edge by edge in their order. -/
structure Attaches (graph : Digraph) (image : Image) : Prop where
  declared : ∀ tail head, (tail, head) ∈ graph.ends →
    tail ∈ graph.nodeNames ∧ head ∈ graph.nodeNames
  shown : List.Forall₂ (fun edge line => graph.AttachesEnd image edge.client line.tail ∧
    graph.AttachesEnd image edge.server line.head) image.edges graph.shownEdges

end Digraph

/-- Clusters of different groups have different names. -/
theorem clusterName_injective {left right : NodeId} (same : clusterName left = clusterName right) :
    left = right :=
  NodeId.encode_injective ((String.append_right_inj _).mp same)

/-- Invisible nodes of different frames have different names. -/
theorem anchorName_injective {left right : NodeId} (same : anchorName left = anchorName right) :
    left = right :=
  NodeId.encode_injective ((String.append_left_inj _).mp same)

/-- The name of an invisible node is no identifier. -/
theorem anchorName_ne_encode (frame box : NodeId) : anchorName frame ≠ box.encode := by
  intro same
  have marked : endpointSeparator ∈ (anchorName frame).toList := by
    rw [anchorName, String.toList_append]
    exact List.mem_append_right _ (by decide)
  rw [same] at marked
  exact NodeId.endpointSeparator_not_mem_encode box marked

/-- The names that a node declares of its own: a box declares its identifier, and a frame without
children its invisible node. A frame with children declares nothing itself, and this is where a hollow
frame goes without a node. -/
def declaredNames : ImageNode → List String
  | .leaf box | .group box => [box.id.encode]
  | .cluster id _ children => if children.isEmpty then [anchorName id] else []

/-- A box declares its identifier. -/
theorem encode_mem_declaredNames {node : ImageNode} (single : node.isCluster = false) :
    node.id.encode ∈ declaredNames node := by
  cases node <;> first | exact List.mem_singleton_self _ | cases single

/-- A declared name is the identifier of the node or the name of its invisible node. -/
theorem eq_of_mem_declaredNames {node : ImageNode} {name : String}
    (declared : name ∈ declaredNames node) : name = node.id.encode ∨ name = anchorName node.id := by
  cases node with
  | leaf box => exact Or.inl (List.mem_singleton.mp declared)
  | group box => exact Or.inl (List.mem_singleton.mp declared)
  | cluster id label children =>
    rw [declaredNames] at declared
    split at declared
    · exact Or.inr (List.mem_singleton.mp declared)
    · cases declared

/-- Only a frame without children declares an invisible node. -/
theorem eq_of_anchorName_mem {node : ImageNode} {id : NodeId}
    (declared : anchorName id ∈ declaredNames node) : ∃ label, node = .cluster id label [] := by
  cases node with
  | leaf box => exact absurd (List.mem_singleton.mp declared) (anchorName_ne_encode id box.id)
  | group box => exact absurd (List.mem_singleton.mp declared) (anchorName_ne_encode id box.id)
  | cluster own label children =>
    rw [declaredNames] at declared
    split at declared
    · rename_i empty
      obtain rfl := anchorName_injective (List.mem_singleton.mp declared)
      obtain rfl := List.isEmpty_iff.mp empty
      exact ⟨label, rfl⟩
    · cases declared

/-- Settings declare no node. -/
theorem nodeNames_settingStatements (attributes : List (String × String)) :
    (settingStatements attributes).filterMap Statement.nodeName? = [] := by
  refine List.filterMap_eq_nil_iff.mpr (fun statement listed => ?_)
  obtain ⟨pair, _, rfl⟩ := List.mem_map.mp listed
  rfl

/-- A chain declares no node. -/
theorem nodeNames_chainStatements (vertical : Bool) (nodes : List ImageNode) :
    ((chainLines vertical nodes).flatMap Line.statements).filterMap Statement.nodeName? = [] := by
  refine List.filterMap_eq_nil_iff.mpr (fun statement listed => ?_)
  obtain ⟨tail, _, head, _, rfl⟩ := mem_chainStatements listed
  rfl

/-- The invisible node of a frame is declared where the frame has no children. -/
theorem nodeNames_anchorStatements (id : NodeId) (label : String) (children : List ImageNode) :
    ((anchorLines id children).flatMap Line.statements).filterMap Statement.nodeName? =
      declaredNames (.cluster id label children) := by
  rw [anchorLines, declaredNames]
  split <;> rfl

/-- The statements that a node adds of its own declare its own names. -/
theorem nodeNames_ownStatements (vertical : Bool) (node : ImageNode) :
    (ownStatements vertical node).filterMap Statement.nodeName? = declaredNames node := by
  cases node with
  | leaf box => rfl
  | group box => rfl
  | cluster id label children =>
    have opened : (nodeStatements vertical (.cluster id label children)).filterMap
        Statement.nodeName? = [] := rfl
    rw [ownStatements, List.filterMap_append, List.filterMap_append, List.filterMap_append, opened,
      nodeNames_settingStatements, nodeNames_anchorStatements id label, nodeNames_chainStatements,
      List.append_nil, List.nil_append, List.nil_append]

/-- The statements of a level declare the names of the nodes inside the level. -/
theorem nodeNames_levelStatements (vertical : Bool) (nodes : List ImageNode) :
    (Statement.nodeNames (levelStatements vertical nodes)).Perm
      ((ImageNode.flattenAll nodes).flatMap declaredNames) := by
  have spread := (flattenAll_levelStatements vertical nodes).filterMap Statement.nodeName?
  rw [List.filterMap_append, nodeNames_chainStatements, List.append_nil,
    List.filterMap_flatMap] at spread
  simp only [nodeNames_ownStatements] at spread
  exact spread

/-- The statements inside the cluster of a frame. -/
def frameBody (vertical : Bool) (id : NodeId) (label : String) (children : List ImageNode) :
    List Statement :=
  settingStatements (frameAttributes id label) ++
    (anchorLines id children).flatMap Line.statements ++ levelStatements vertical children

/-- The cluster of a frame declares the names of the frame and of the nodes inside it. -/
theorem nodeNames_frameBody (vertical : Bool) (id : NodeId) (label : String)
    (children : List ImageNode) :
    (Statement.nodeNames (frameBody vertical id label children)).Perm
      ((ImageNode.cluster id label children).flatten.flatMap declaredNames) := by
  have level := nodeNames_levelStatements vertical children
  rw [Statement.nodeNames] at level ⊢
  rw [frameBody, Statement.flattenAll_append, Statement.flattenAll_append,
    flattenAll_settingStatements, flattenAll_lineStatements, List.filterMap_append,
    List.filterMap_append, nodeNames_settingStatements, nodeNames_anchorStatements id label,
    List.nil_append, ImageNode.flatten, List.flatMap_cons]
  exact level.append_left _

/-- What is found statement by statement at every depth, where settings, edges and chains do not
count, is found among the statements that the nodes add. -/
theorem filterMap_flattenAll_digraphOf {Found : Type} (image : Image) (options : ViewOptions)
    (read : Statement → Option Found) (setting : ∀ key value, read (.setting key value) = none)
    (defaults : ∀ attributes, read (.nodeDefaults attributes) = none)
    (edge : ∀ tail head attributes, read (.edge tail head attributes) = none) :
    ((Statement.flattenAll (digraphOf image options).body).filterMap read).Perm
      (image.allNodes.flatMap
        (fun node => (ownStatements options.verticalAlign node).filterMap read)) := by
  have front : (preambleStatements image options).filterMap read = [] := by
    rw [preambleStatements, preamble]
    split <;> simp [Line.statements, setting, defaults]
  have edges : (edgeStatements image).filterMap read = [] := by
    refine List.filterMap_eq_nil_iff.mpr (fun statement listed => ?_)
    obtain ⟨line, present, here⟩ := List.mem_flatMap.mp listed
    obtain ⟨other, _, rfl⟩ := List.mem_map.mp present
    obtain rfl := List.mem_singleton.mp here
    exact edge _ _ _
  have chain : ((chainLines options.verticalAlign image.nodes).flatMap
      Line.statements).filterMap read = [] := by
    refine List.filterMap_eq_nil_iff.mpr (fun statement listed => ?_)
    obtain ⟨tail, _, head, _, rfl⟩ := mem_chainStatements listed
    exact edge _ _ _
  have spread := (flattenAll_levelStatements options.verticalAlign image.nodes).filterMap read
  rw [List.filterMap_append, chain, List.append_nil, List.filterMap_flatMap] at spread
  rw [flattenAll_digraphOf, List.filterMap_append, List.filterMap_append, front, edges,
    List.nil_append, List.append_nil]
  exact spread

/-- The drawing of an image declares the names of the nodes of the image. -/
theorem nodeNames_digraphOf (image : Image) (options : ViewOptions) :
    (digraphOf image options).nodeNames.Perm (image.allNodes.flatMap declaredNames) := by
  have spread := filterMap_flattenAll_digraphOf image options Statement.nodeName?
    (fun _ _ => rfl) (fun _ => rfl) (fun _ _ _ => rfl)
  simp only [nodeNames_ownStatements] at spread
  exact spread

/-- The drawing of an image declares exactly the names of its nodes. -/
theorem mem_nodeNames_iff {image : Image} {options : ViewOptions} {name : String} :
    name ∈ (digraphOf image options).nodeNames ↔
      ∃ node ∈ image.allNodes, name ∈ declaredNames node :=
  (nodeNames_digraphOf image options).mem_iff.trans List.mem_flatMap

/-- The clusters that a node adds of its own. -/
def ownBlocks (vertical : Bool) : ImageNode → List (String × List Statement)
  | .leaf _ | .group _ => []
  | .cluster id label children => [(clusterName id, frameBody vertical id label children)]

/-- The statements that a node adds of its own hold its own clusters. -/
theorem blocks_ownStatements (vertical : Bool) (node : ImageNode) :
    (ownStatements vertical node).filterMap Statement.block? = ownBlocks vertical node := by
  cases node with
  | leaf box => rfl
  | group box => rfl
  | cluster id label children =>
    have opened : (nodeStatements vertical (.cluster id label children)).filterMap
        Statement.block? = ownBlocks vertical (.cluster id label children) := rfl
    have settings : (settingStatements (frameAttributes id label)).filterMap Statement.block? = [] :=
      rfl
    have lines : ∀ lines : List Line,
        (lines.flatMap Line.statements).filterMap Statement.block? = [] := by
      intro lines
      refine List.filterMap_eq_nil_iff.mpr (fun statement listed => ?_)
      obtain ⟨line, _, here⟩ := List.mem_flatMap.mp listed
      exact block?_of_mem_statements here
    rw [ownStatements, List.filterMap_append, List.filterMap_append, List.filterMap_append, opened,
      settings, lines, lines, List.append_nil, List.append_nil, List.append_nil]

/-- The drawing of an image holds the clusters of the frames of the image. -/
theorem blocks_digraphOf (image : Image) (options : ViewOptions) :
    (digraphOf image options).blocks.Perm
      (image.allNodes.flatMap (ownBlocks options.verticalAlign)) := by
  have spread := filterMap_flattenAll_digraphOf image options Statement.block?
    (fun _ _ => rfl) (fun _ => rfl) (fun _ _ _ => rfl)
  simp only [blocks_ownStatements] at spread
  exact spread

/-- Names that tell apart whose they are, and that no node has twice, are unique where the
identifiers of the nodes are. -/
theorem nodup_names {image : Image} (distinct : image.ids.Nodup) {names : ImageNode → List String}
    (once : ∀ node, (names node).Nodup)
    (telling : ∀ first second name, name ∈ names first → name ∈ names second →
      first.id = second.id) : (image.allNodes.flatMap names).Nodup := by
  rw [List.nodup_flatMap]
  refine ⟨fun node _ => once node, ?_⟩
  refine (List.pairwise_map.mp distinct).imp (fun {first second} differ => ?_)
  exact List.disjoint_left.mpr (fun name left right => differ (telling first second name left right))

/-- No name is declared twice. -/
theorem nodup_nodeNames {image : Image} (distinct : image.ids.Nodup) (options : ViewOptions) :
    (digraphOf image options).nodeNames.Nodup := by
  refine (nodeNames_digraphOf image options).nodup_iff.mpr (nodup_names distinct ?_ ?_)
  · intro node
    cases node with
    | leaf box => exact List.nodup_singleton _
    | group box => exact List.nodup_singleton _
    | cluster id label children =>
      rw [declaredNames]
      split
      · exact List.nodup_singleton _
      · exact List.nodup_nil
  · intro first second name left right
    rcases eq_of_mem_declaredNames left with rfl | rfl
    · rcases eq_of_mem_declaredNames right with same | same
      · exact NodeId.encode_injective same
      · exact absurd same.symm (anchorName_ne_encode second.id first.id)
    · rcases eq_of_mem_declaredNames right with same | same
      · exact absurd same (anchorName_ne_encode first.id second.id)
      · exact anchorName_injective same

/-- No two clusters have one name. -/
theorem nodup_blockNames {image : Image} (distinct : image.ids.Nodup) (options : ViewOptions) :
    ((digraphOf image options).blocks.map Prod.fst).Nodup := by
  have owner : ∀ node name, name ∈ (ownBlocks options.verticalAlign node).map Prod.fst →
      name = clusterName node.id := by
    intro node name listed
    cases node with
    | leaf box => cases listed
    | group box => cases listed
    | cluster id label children => exact List.mem_singleton.mp listed
  refine ((blocks_digraphOf image options).map Prod.fst).nodup_iff.mpr ?_
  rw [List.map_flatMap]
  refine nodup_names distinct ?_ ?_
  · intro node
    cases node <;> first | exact List.nodup_nil | exact List.nodup_singleton _
  · intro first second name left right
    exact clusterName_injective ((owner first name left).symm.trans (owner second name right))

variable {image : Image}

/-- The boxes of a level of the image are declared. -/
theorem boxName_declared {options : ViewOptions} {nodes : List ImageNode}
    (level : image.IsLevel nodes) {name : String} (listed : name ∈ boxNames nodes) :
    name ∈ (digraphOf image options).nodeNames := by
  obtain ⟨node, single, rfl⟩ := List.mem_map.mp listed
  obtain ⟨present, single⟩ := List.mem_filter.mp single
  rw [Bool.not_eq_true'] at single
  exact mem_nodeNames_iff.mpr
    ⟨node, level.sublist.subset present, encode_mem_declaredNames single⟩

/-- An edge of the drawing is an invisible edge between neighbouring boxes of a level, or the line of an
edge of the image. The preamble has no edges, a level has those of its chains, and all others are edges
of the image. -/
theorem ends_origin {options : ViewOptions} {tail head : String}
    (listed : (tail, head) ∈ (digraphOf image options).ends) :
    (∃ nodes, image.IsLevel nodes ∧ (tail, head) ∈ (boxNames nodes).zip (boxNames nodes).tail) ∨
      ∃ edge ∈ image.edges, tail = endName image edge.client ∧ head = endName image edge.server := by
  have chained : ∀ {nodes : List ImageNode} {statement : Statement}, image.IsLevel nodes →
      statement ∈ (chainLines options.verticalAlign nodes).flatMap Line.statements →
      statement.ends? = some (tail, head) →
      ∃ nodes, image.IsLevel nodes ∧ (tail, head) ∈ (boxNames nodes).zip (boxNames nodes).tail := by
    intro nodes statement level present here
    obtain ⟨first, second, linked, rfl⟩ := exists_neighbours present
    obtain ⟨rfl, rfl⟩ := Prod.mk.inj (Option.some.inj here)
    exact ⟨nodes, level, linked⟩
  obtain ⟨statement, present, here⟩ := List.mem_filterMap.mp listed
  rw [flattenAll_digraphOf, List.mem_append, List.mem_append] at present
  rcases present with (front | level) | drawn
  · rw [preambleStatements, preamble] at front
    split at front <;> simp only [List.cons_append, List.nil_append, List.flatMap_cons,
      Line.statements, List.mem_cons, List.flatMap_nil, List.not_mem_nil, or_false] at front
    · rcases front with rfl | rfl | rfl <;> cases here
    · rcases front with rfl | rfl <;> cases here
  · left
    rcases List.mem_append.mp ((flattenAll_levelStatements _ _).mem_iff.mp level) with own | chain
    · obtain ⟨node, inside, added⟩ := List.mem_flatMap.mp own
      cases node with
      | leaf box =>
        obtain rfl := List.mem_singleton.mp added
        cases here
      | group box =>
        obtain rfl := List.mem_singleton.mp added
        cases here
      | cluster id label children =>
        simp only [ownStatements, nodeStatements, List.mem_append, List.mem_singleton] at added
        rcases added with ((rfl | setting) | anchor) | chain
        · cases here
        · obtain ⟨pair, _, rfl⟩ := List.mem_map.mp setting
          cases here
        · rw [mem_anchorStatements anchor] at here
          cases here
        · exact chained (Or.inr ⟨id, label, inside⟩) chain here
    · exact chained (Or.inl rfl) chain here
  · right
    obtain ⟨line, shown, stated⟩ := List.mem_flatMap.mp drawn
    obtain ⟨edge, given, rfl⟩ := List.mem_map.mp shown
    obtain rfl := List.mem_singleton.mp stated
    obtain ⟨rfl, rfl⟩ := Prod.mk.inj (Option.some.inj here)
    exact ⟨edge, given, rfl, rfl⟩

/-- Neighbouring boxes of a level are declared. -/
theorem neighbours_declared {options : ViewOptions} {nodes : List ImageNode} {tail head : String}
    (level : image.IsLevel nodes) (linked : (tail, head) ∈ (boxNames nodes).zip (boxNames nodes).tail) :
    tail ∈ (digraphOf image options).nodeNames ∧ head ∈ (digraphOf image options).nodeNames := by
  obtain ⟨first, second⟩ := List.of_mem_zip linked
  exact ⟨boxName_declared level first, boxName_declared level (List.mem_of_mem_tail second)⟩

/-- An edge of the drawing is an invisible edge between declared boxes, or the line of an edge of
the image. -/
theorem ends_cases {options : ViewOptions} {tail head : String}
    (listed : (tail, head) ∈ (digraphOf image options).ends) :
    (tail ∈ (digraphOf image options).nodeNames ∧ head ∈ (digraphOf image options).nodeNames) ∨
      ∃ edge ∈ image.edges, tail = endName image edge.client ∧ head = endName image edge.server :=
  (ends_origin listed).imp_left (fun ⟨_, level, linked⟩ => neighbours_declared level linked)

/-- An end that is a box attaches to the box. -/
theorem endName_box (distinct : image.ids.Nodup) {node : ImageNode}
    (listed : node ∈ image.allNodes) (single : node.isCluster = false) :
    endName image node.id = node.id.encode := by
  rw [endName, Image.find?_id distinct listed]
  cases node <;> first | rfl | cases single

/-- An end that is a frame attaches to the first box inside the frame, or to its invisible node. -/
theorem endName_frame (distinct : image.ids.Nodup) {id : NodeId} {label : String}
    {children : List ImageNode} (listed : .cluster id label children ∈ image.allNodes) :
    endName image id = ((ImageNode.firstAnchor? children).map NodeId.encode).getD (anchorName id) := by
  have found : image.find? id = some (.cluster id label children) :=
    Image.find?_id distinct listed
  rw [endName, found]
  simp only [ImageNode.anchor?]
  cases ImageNode.firstAnchor? children <;> rfl

/-- A frame that is not hollow declares inside its cluster the node that stands for it. -/
theorem endName_declared_inside (distinct : image.ids.Nodup) {id : NodeId} {label : String}
    {children : List ImageNode} (listed : .cluster id label children ∈ image.allNodes)
    (filled : ¬ image.IsHollow id) :
    ∃ node ∈ (ImageNode.cluster id label children).flatten,
      endName image id ∈ declaredNames node := by
  rw [endName_frame distinct listed]
  rcases ImageNode.firstAnchor?_cases children with ⟨box, inside, single, first⟩ | ⟨frames, missing⟩
  · rw [first]
    exact ⟨box, List.mem_cons_of_mem _ inside, encode_mem_declaredNames single⟩
  · rw [missing]
    have empty : children = [] :=
      ImageNode.eq_nil_of_not_isHollow frames (fun hollow => filled ⟨_, listed, rfl, hollow⟩)
    subst empty
    exact ⟨_, ImageNode.self_mem_flatten _, List.mem_singleton_self _⟩

/-- The node that would stand for a hollow frame is not declared. -/
theorem endName_not_declared (distinct : image.ids.Nodup) {id : NodeId}
    (hollow : image.IsHollow id) (options : ViewOptions) :
    endName image id ∉ (digraphOf image options).nodeNames := by
  obtain ⟨frame, listed, rfl, hollow⟩ := hollow
  obtain ⟨id, label, children, rfl, some, missing⟩ := ImageNode.firstAnchor?_of_isHollow hollow
  change endName image id ∉ _
  rw [endName_frame distinct listed, missing]
  intro declared
  obtain ⟨node, present, own⟩ := mem_nodeNames_iff.mp declared
  obtain ⟨other, rfl⟩ := eq_of_anchorName_mem own
  obtain ⟨_, _, same⟩ := ImageNode.cluster.inj (Image.eq_of_id_eq distinct present listed rfl)
  exact some same.symm

/-- An end that is a box attaches in order. -/
theorem attachesEnd_box (distinct : image.ids.Nodup) (options : ViewOptions) {node : ImageNode}
    (listed : node ∈ image.allNodes) (single : node.isCluster = false) :
    (digraphOf image options).AttachesEnd image node.id (endName image node.id) := by
  rw [endName_box distinct listed single]
  refine ⟨mem_nodeNames_iff.mpr ⟨node, listed, encode_mem_declaredNames single⟩, ?_⟩
  rintro ⟨label, children, present⟩
  rw [Image.eq_of_id_eq distinct listed present rfl] at single
  cases single

/-- An end that is a frame, but not a hollow one, attaches in order. -/
theorem attachesEnd_frame (distinct : image.ids.Nodup) (options : ViewOptions) {id : NodeId}
    {label : String} {children : List ImageNode}
    (listed : .cluster id label children ∈ image.allNodes) (filled : ¬ image.IsHollow id) :
    (digraphOf image options).AttachesEnd image id (endName image id) := by
  obtain ⟨inner, inside, own⟩ := endName_declared_inside distinct listed filled
  have held := (ImageNode.flatten_sublist_flattenAll image.nodes listed).subset inside
  refine ⟨mem_nodeNames_iff.mpr ⟨inner, held, own⟩, fun _ => ?_⟩
  refine ⟨frameBody options.verticalAlign id label children, ?_, ?_⟩
  · refine (blocks_digraphOf image options).mem_iff.mpr (List.mem_flatMap.mpr ?_)
    exact ⟨_, listed, List.mem_singleton_self _⟩
  · exact (nodeNames_frameBody _ id label children).mem_iff.mpr
      (List.mem_flatMap.mpr ⟨inner, inside, own⟩)

/-- An end of an edge attaches in order exactly when it is not a hollow frame. -/
theorem attachesEnd_iff (distinct : image.ids.Nodup) (options : ViewOptions) {id : NodeId}
    (named : id ∈ image.ids) :
    (digraphOf image options).AttachesEnd image id (endName image id) ↔ ¬ image.IsHollow id := by
  refine ⟨fun attaches hollow => endName_not_declared distinct hollow options attaches.declared, ?_⟩
  intro filled
  obtain ⟨node, listed, rfl⟩ := List.mem_map.mp named
  cases node with
  | leaf box => exact attachesEnd_box distinct options listed rfl
  | group box => exact attachesEnd_box distinct options listed rfl
  | cluster id label children => exact attachesEnd_frame distinct options listed filled

/-- In the drawing of an image whose identifiers are distinct and whose edges end on its nodes, every
declared name and every cluster is unique, and an end of an edge attaches to a declared node of the right
cluster exactly when it is not a hollow frame. So all edges attach exactly when none ends on a hollow
frame. The two conditions on the image are met by every image of a filtered graph with no edge to the
root. Distinct identifiers are needed because they become names, and ends that are there because only
those have a node to attach to.

That names are unique is part of the statement, so attaching to a declared node means attaching to the
one node that was meant. Both ends of an edge are treated alike: what a line names for an end attaches
unless the end is hollow. -/
theorem edges_attach_exactly {image : Image} (options : ViewOptions) (distinct : image.ids.Nodup)
    (named : ∀ edge ∈ image.edges, edge.client ∈ image.ids ∧ edge.server ∈ image.ids) :
    ∃ graph, Digraph.read? (ofImage image options) = some graph ∧
      graph.nodeNames.Nodup ∧ (graph.blocks.map Prod.fst).Nodup ∧
      List.Forall₂ (fun edge line =>
        (graph.AttachesEnd image edge.client line.tail ↔ ¬ image.IsHollow edge.client) ∧
        (graph.AttachesEnd image edge.server line.head ↔ ¬ image.IsHollow edge.server))
        image.edges graph.shownEdges ∧
      (graph.Attaches image ↔
        ∀ edge ∈ image.edges, ¬ image.IsHollow edge.client ∧ ¬ image.IsHollow edge.server) := by
  have client : ∀ edge ∈ image.edges,
      ((digraphOf image options).AttachesEnd image edge.client (endName image edge.client) ↔
        ¬ image.IsHollow edge.client) :=
    fun edge listed => attachesEnd_iff distinct options (named edge listed).1
  have server : ∀ edge ∈ image.edges,
      ((digraphOf image options).AttachesEnd image edge.server (endName image edge.server) ↔
        ¬ image.IsHollow edge.server) :=
    fun edge listed => attachesEnd_iff distinct options (named edge listed).2
  refine ⟨digraphOf image options, read?_ofImage image options, nodup_nodeNames distinct options,
    nodup_blockNames distinct options, ?_, ?_⟩
  · rw [shownEdges_digraphOf, List.forall₂_map_right_iff, List.forall₂_same]
    exact fun edge listed => ⟨client edge listed, server edge listed⟩
  · constructor
    · intro attaches edge listed
      have shown := attaches.shown
      rw [shownEdges_digraphOf, List.forall₂_map_right_iff, List.forall₂_same] at shown
      exact ⟨(client edge listed).mp (shown edge listed).1, (server edge listed).mp (shown edge listed).2⟩
    · intro filled
      refine ⟨fun tail head listed => ?_, ?_⟩
      · rcases ends_cases listed with declared | ⟨edge, given, rfl, rfl⟩
        · exact declared
        · exact ⟨((client edge given).mpr (filled edge given).1).declared,
            ((server edge given).mpr (filled edge given).2).declared⟩
      · rw [shownEdges_digraphOf, List.forall₂_map_right_iff, List.forall₂_same]
        exact fun edge listed => ⟨(client edge listed).mpr (filled edge listed).1,
          (server edge listed).mpr (filled edge listed).2⟩

namespace Sample

/-- An outer frame. -/
def outer : NodeId := .named .customFolder ⟨"Around", by decide, by decide⟩

/-- A frame inside the outer one. -/
def inner : NodeId := .named .customFolder ⟨"Within", by decide, by decide⟩

/-- A frame without children. -/
def bare : NodeId := .named .customFolder ⟨"Bare", by decide, by decide⟩

/-- A box inside the inner frame. -/
def core : NodeId := .named .assembly ⟨"Core", by decide, by decide⟩

/-- A box beside the frames. -/
def app : NodeId := .named .assembly ⟨"App", by decide, by decide⟩

/-- An edge on a frame. -/
def edgeOn (client server : NodeId) (tail : Option NodeId) : ImageEdge :=
  ⟨.ofEndpoints client server, client, server, none, "", .leaf, tail, some server⟩

/-- Edges on a frame with a box two levels below, on the frame between them and on a frame without
children. -/
def filledImage : Image where
  nodes := [.cluster outer "Around" [.cluster inner "Within" [.leaf ⟨core, "Core", .component⟩]],
    .cluster bare "Bare" [], .leaf ⟨app, "App", .component⟩]
  edges := [edgeOn app outer none, edgeOn bare inner (some bare)]
  edgeDetails := false
  hasParentEdges := true

/-- An edge on a frame that holds nothing but a frame without children. -/
def hollowImage : Image where
  nodes := [.cluster outer "Around" [.cluster inner "Within" []], .leaf ⟨app, "App", .component⟩]
  edges := [edgeOn app outer none]
  edgeDetails := false
  hasParentEdges := true

end Sample

/-- The edges of the sample whose frames are filled or empty attach: to the box two levels below,
and to the invisible node. -/
theorem filled_sample_attaches :
    Sample.filledImage.ids.Nodup ∧
    (∀ edge ∈ Sample.filledImage.edges,
      edge.client ∈ Sample.filledImage.ids ∧ edge.server ∈ Sample.filledImage.ids) ∧
    ∃ graph, Digraph.read? (ofImage Sample.filledImage (.standard .custom)) = some graph ∧
      graph.Attaches Sample.filledImage := by
  have distinct : Sample.filledImage.ids.Nodup := by decide
  have named : ∀ edge ∈ Sample.filledImage.edges,
      edge.client ∈ Sample.filledImage.ids ∧ edge.server ∈ Sample.filledImage.ids := by decide
  obtain ⟨graph, read, _, _, _, attaches⟩ :=
    edges_attach_exactly (.standard .custom) distinct named
  refine ⟨distinct, named, graph, read, attaches.mpr (by decide)⟩

/-- The drawing of the sample with a hollow frame has an edge to a node that it does not declare. -/
theorem hollow_sample_not_attached :
    Sample.hollowImage.ids.Nodup ∧
    (∀ edge ∈ Sample.hollowImage.edges,
      edge.client ∈ Sample.hollowImage.ids ∧ edge.server ∈ Sample.hollowImage.ids) ∧
    ∃ graph, Digraph.read? (ofImage Sample.hollowImage (.standard .custom)) = some graph ∧
      graph.nodeNames = ["customFolder|Within~anchor", "assembly|App"] ∧
      graph.ends = [("assembly|App", "customFolder|Around~anchor")] ∧
      ¬ graph.Attaches Sample.hollowImage := by
  have names : (digraphOf Sample.hollowImage (.standard .custom)).nodeNames =
      ["customFolder|Within~anchor", "assembly|App"] := by decide
  have ends : (digraphOf Sample.hollowImage (.standard .custom)).ends =
      [("assembly|App", "customFolder|Around~anchor")] := by decide
  refine ⟨by decide, by decide, _, read?_ofImage _ _, names, ends, fun attaches => ?_⟩
  have declared := attaches.declared "assembly|App" "customFolder|Around~anchor"
  rw [names, ends] at declared
  exact absurd (declared (List.mem_singleton_self _)).2 (by decide)

end Drawing

end DependencyDiagram
