import DependencyDiagram.Picture.Projection
import DependencyDiagram.Proofs.Surfacing.Exposure
import Mathlib.Data.List.Forall2

/-!
# Layout of an image

The nodes of an image correspond to the drawn positions one by one, in the order of the walk
over the tree, and so do the rows of the side table. What is drawn for a position is fixed by
its node: the identifier, the label, the form, and inside a frame the visible children in
order. The correspondence is built from below, frame by frame.
-/

namespace DependencyDiagram

namespace ImageNode

/-- The nodes of a level and everything inside them come level node by level node. -/
theorem flattenAll_eq (nodes : List ImageNode) : flattenAll nodes = nodes.flatMap flatten := by
  induction nodes with
  | nil => rfl
  | cons node rest inductionHypothesis => rw [flattenAll, List.flatMap_cons, inductionHypothesis]

/-- A level inside a level. -/
theorem flattenAll_append (first second : List ImageNode) :
    flattenAll (first ++ second) = flattenAll first ++ flattenAll second := by
  simp only [flattenAll_eq, List.flatMap_append]

/-- A node comes first among the nodes inside it. -/
theorem self_mem_flatten (node : ImageNode) : node ∈ flatten node := by
  cases node <;> simp [flatten]

/-- A level is part of everything inside it, in the same order. -/
theorem sublist_flattenAll (nodes : List ImageNode) : nodes.Sublist (flattenAll nodes) := by
  induction nodes with
  | nil => exact List.Sublist.refl []
  | cons node rest inductionHypothesis =>
    rw [flattenAll]
    exact (List.singleton_sublist.mpr (self_mem_flatten node)).append inductionHypothesis

/-- A member of a level is among everything inside it. -/
theorem mem_flattenAll_of_mem {nodes : List ImageNode} {node : ImageNode} (listed : node ∈ nodes) :
    node ∈ flattenAll nodes :=
  (sublist_flattenAll nodes).subset listed

mutual

/-- What is inside a node of a tree of frames is inside the tree, in the same order. -/
theorem flatten_sublist_flatten {inner : ImageNode} :
    ∀ node, inner ∈ flatten node → (flatten inner).Sublist (flatten node)
  | leaf _, listed => by
    obtain rfl := List.mem_singleton.mp listed
    exact List.Sublist.refl _
  | group _, listed => by
    obtain rfl := List.mem_singleton.mp listed
    exact List.Sublist.refl _
  | cluster _ _ children, listed => by
    rw [flatten] at listed
    rcases List.mem_cons.mp listed with rfl | further
    · exact List.Sublist.refl _
    · exact (flatten_sublist_flattenAll children further).cons _

/-- What is inside a node of a level is inside the level, in the same order. -/
theorem flatten_sublist_flattenAll {inner : ImageNode} :
    ∀ nodes, inner ∈ flattenAll nodes → (flatten inner).Sublist (flattenAll nodes)
  | [], listed => by cases listed
  | node :: rest, listed => by
    rw [flattenAll] at listed ⊢
    rcases List.mem_append.mp listed with first | later
    · exact (flatten_sublist_flatten node first).trans (List.sublist_append_left _ _)
    · exact (flatten_sublist_flattenAll rest later).trans (List.sublist_append_right _ _)

end

/-- What a frame inside a level holds is inside the level. -/
theorem child_mem_flattenAll {id : NodeId} {label : String} {children : List ImageNode}
    {child : ImageNode} (held : child ∈ children) (nodes : List ImageNode)
    (listed : cluster id label children ∈ flattenAll nodes) : child ∈ flattenAll nodes :=
  (flatten_sublist_flattenAll nodes listed).subset
    (List.mem_cons_of_mem _ (mem_flattenAll_of_mem held))

mutual

/-- The first box inside a node is the first one in its flattening. -/
theorem anchor?_eq (node : ImageNode) :
    node.anchor? = (node.flatten.find? (fun inner => !inner.isCluster)).map id := by
  cases node with
  | leaf box => rfl
  | group box => rfl
  | cluster _ _ children => exact firstAnchor?_eq children

/-- The first box inside a level is the first one in its flattening. -/
theorem firstAnchor?_eq (nodes : List ImageNode) :
    firstAnchor? nodes = ((flattenAll nodes).find? (fun inner => !inner.isCluster)).map id := by
  cases nodes with
  | nil => rfl
  | cons node rest =>
    rw [firstAnchor?, flattenAll, List.find?_append, Option.map_or, anchor?_eq node,
      firstAnchor?_eq rest]

end

end ImageNode

namespace VisibleGraph

/-- The visible children of a node, in order. Hidden children take no room, and the others keep their
order. -/
def visibleChildren (graph : VisibleGraph) (position : Nat) : List Nat :=
  (graph.tree.children position).filter graph.isVisible

/-- What is drawn for a position: the node's identifier and label, a box for a leaf or a collapsed group,
and for an expanded group a frame around its visible children. Inside a frame only the identifiers of the
direct children are fixed here. What these depict is said of their own positions. -/
def Depicts (graph : VisibleGraph) (options : ViewOptions) (styles : Styles) (position : Nat)
    (drawn : ImageNode) : Prop :=
  ∃ node, graph.tree.node? position = some node ∧ drawn.id = node.id ∧
    displayLabel graph.tree options node = .ok drawn.label ∧
    match drawn with
    | .leaf box => node.isLeaf = true ∧ box.shape = styles.shape node.id true
    | .group box =>
      node.isLeaf = false ∧ graph.isExpanded position = false ∧
        box.shape = styles.shape node.id false
    | .cluster _ _ children =>
      node.isLeaf = false ∧ graph.isExpanded position = true ∧
        children.map ImageNode.id = (graph.visibleChildren position).flatMap graph.tree.idsAt

/-- The class of a node: leaves, collapsed groups and expanded groups differ. It is asked of a position
before anything is drawn, while the class of a drawn node follows from its form; the two agree. -/
def classAt (graph : VisibleGraph) (position : Nat) (node : TreeNode) : ElementClass :=
  if node.isLeaf then .leaf else if graph.isExpanded position then .expanded else .closed

/-- The row of the node at a position. -/
def rowsAt (graph : VisibleGraph) (position : Nat) : List (String × ElementAttributes) :=
  ((graph.tree.node? position).map (fun node => nodeRow node (graph.classAt position node))).toList

/-- Drawn nodes with their rows, for the positions of a level and for everything below. The level is what
the caller asked for, and the rest is what lies inside the frames of the level. The two lists of
positions are kept apart because a frame takes its children from one and its rows from the other. -/
structure Draws (graph : VisibleGraph) (options : ViewOptions) (styles : Styles)
    (level all : List Nat) (drawn : Drawn) : Prop where
  level : drawn.nodes.map ImageNode.id = level.flatMap graph.tree.idsAt
  depicted : List.Forall₂ (graph.Depicts options styles) all (ImageNode.flattenAll drawn.nodes)
  rows : drawn.rows = all.flatMap graph.rowsAt

variable {graph : VisibleGraph} {options : ViewOptions} {styles : Styles}

/-- What depicts a position carries the identifier there. -/
theorem idsAt_of_depicts {position : Nat} {drawn : ImageNode}
    (depicts : graph.Depicts options styles position drawn) :
    graph.tree.idsAt position = [drawn.id] := by
  obtain ⟨node, present, named, _⟩ := depicts
  simp [Tree.idsAt, present, named]

/-- Nothing is drawn for no position. -/
theorem draws_nothing : graph.Draws options styles [] [] .nothing :=
  ⟨rfl, List.Forall₂.nil, rfl⟩

/-- Parts drawn one after the other make a level. -/
theorem draws_join {level all : Nat → List Nat} {keys : List Nat} {parts : List Drawn}
    (each : List.Forall₂ (fun key part => graph.Draws options styles (level key) (all key) part)
      keys parts) :
    graph.Draws options styles (keys.flatMap level) (keys.flatMap all) (Drawn.join parts) := by
  induction each with
  | nil => exact draws_nothing
  | @cons key part keys parts here _ inductionHypothesis =>
    have joined : Drawn.join (part :: parts) =
        ⟨part.nodes ++ (Drawn.join parts).nodes, part.rows ++ (Drawn.join parts).rows⟩ := rfl
    rw [joined, List.flatMap_cons, List.flatMap_cons]
    refine ⟨?_, ?_, ?_⟩
    · rw [List.map_append, List.flatMap_append, here.level, inductionHypothesis.level]
    · rw [ImageNode.flattenAll_append]
      exact List.rel_append here.depicted inductionHypothesis.depicted
    · rw [List.flatMap_append, here.rows, inductionHypothesis.rows]

/-- The equation of drawing. -/
theorem drawFrom_eq (position : Nat) :
    drawFrom graph options styles position =
      match graph.tree.node? position with
      | none => .ok .nothing
      | some node =>
        if graph.isVisible position then
          drawNode graph options styles position node
            ((graph.tree.children position).map (drawFrom graph options styles))
        else .ok .nothing := by
  rw [drawFrom, Tree.fold_eq]
  rfl

/-- Nothing outside the tree is visible. -/
theorem isVisible_of_outside {position : Nat} (missing : graph.tree.node? position = none) :
    graph.isVisible position = false := by
  rw [Bool.eq_false_iff, ne_eq, isVisible_iff]
  rintro (rfl | marked)
  · obtain ⟨node, present, _⟩ := graph.tree.exists_root
    rw [missing] at present
    cases present
  · rw [Tree.showsFrom_outside _ _ (List.getElem?_eq_none_iff.mp missing)] at marked
    cases marked

/-- One by one, the visible positions of a list are the visible ones among them. -/
theorem flatMap_visible (keys : List Nat) :
    keys.flatMap (fun key => [key].filter graph.isVisible) = keys.filter graph.isVisible := by
  induction keys with
  | nil => rfl
  | cons key rest inductionHypothesis =>
    rw [List.flatMap_cons, inductionHypothesis, ← List.filter_append, List.singleton_append]

/-- What depicts a node, together with its row, is drawn for its position and for what is
drawn inside it. -/
theorem draws_around {position : Nat} {node : TreeNode} {image : ImageNode} {level all : List Nat}
    {inner : Drawn} (present : graph.tree.node? position = some node)
    (depicts : graph.Depicts options styles position image)
    (held : ImageNode.flatten image = image :: ImageNode.flattenAll inner.nodes)
    (inside : graph.Draws options styles level all inner) :
    graph.Draws options styles [position] (position :: all)
      ⟨[image], nodeRow node (graph.classAt position node) :: inner.rows⟩ := by
  refine ⟨?_, ?_, ?_⟩
  · rw [List.flatMap_singleton, idsAt_of_depicts depicts]
    rfl
  · rw [ImageNode.flattenAll_eq, List.flatMap_singleton, held]
    exact List.Forall₂.cons depicts inside.depicted
  · rw [List.flatMap_cons, inside.rows, rowsAt, present]
    rfl

/-- A visible node is drawn as a box, or as a frame around what its children's drawings join to. A box
has nothing inside it. Only a frame adds what was drawn for its children, of which the hidden ones have
drawn nothing. -/
theorem draws_drawNode {position : Nat} {node : TreeNode} {drawn : Drawn}
    (present : graph.tree.node? position = some node)
    (below : ∀ child ∈ graph.tree.children position, ∀ part,
      drawFrom graph options styles child = .ok part →
        graph.Draws options styles ([child].filter graph.isVisible) (graph.shownFrom child) part)
    (drew : drawNode graph options styles position node
      ((graph.tree.children position).map (drawFrom graph options styles)) = .ok drawn) :
    graph.Draws options styles [position]
      (position :: (if graph.isExpanded position then
        (graph.tree.children position).flatMap graph.shownFrom else [])) drawn := by
  obtain ⟨label, labelled, formed⟩ := Outcome.bind_eq_ok_iff.mp drew
  by_cases leaf : node.isLeaf = true
  · have kind : graph.classAt position node = .leaf := by simp [classAt, leaf]
    have closed : graph.isExpanded position = false := by
      simp [isExpanded, Tree.isOpenGroup, present, leaf, Tree.ne_root_of_leaf present leaf]
    rw [if_pos leaf] at formed
    obtain rfl := Except.ok.inj formed
    have depicts : graph.Depicts options styles position
        (.leaf ⟨node.id, label, styles.shape node.id true⟩) :=
      ⟨node, present, rfl, labelled, leaf, rfl⟩
    rw [closed, ← kind]
    exact draws_around present depicts rfl draws_nothing
  · rw [if_neg leaf] at formed
    rw [Bool.not_eq_true] at leaf
    by_cases expanded : graph.isExpanded position = true
    · have kind : graph.classAt position node = .expanded := by simp [classAt, leaf, expanded]
      rw [if_pos expanded] at formed
      obtain ⟨parts, each, joined⟩ := Outcome.bind_eq_ok_iff.mp formed
      obtain rfl := Except.ok.inj joined
      rw [List.mapM_map, Outcome.mapM_eq_ok_iff] at each
      have inside := draws_join (((List.forall₂_and_left _ _).mpr ⟨below, each⟩).imp
        (fun child part here => here.1 part here.2))
      rw [flatMap_visible] at inside
      rw [if_pos expanded, ← kind]
      exact draws_around present ⟨node, present, rfl, labelled, leaf, expanded, inside.level⟩ rfl
        inside
    · rw [if_neg expanded] at formed
      obtain rfl := Except.ok.inj formed
      rw [if_neg expanded]
      rw [Bool.not_eq_true] at expanded
      have kind : graph.classAt position node = .closed := by simp [classAt, leaf, expanded]
      have depicts : graph.Depicts options styles position
          (.group ⟨node.id, label, styles.shape node.id false⟩) :=
        ⟨node, present, rfl, labelled, leaf, expanded, rfl⟩
      rw [← kind]
      exact draws_around present depicts rfl draws_nothing

/-- The drawing of a node depicts the positions that it meets. The induction is on the position, from the
tree's leaves upwards: nothing is drawn for a position that does not exist or is not visible, and a
visible node is drawn around what its children's drawings depict. -/
theorem draws_drawFrom {position : Nat} {drawn : Drawn}
    (drew : drawFrom graph options styles position = .ok drawn) :
    graph.Draws options styles ([position].filter graph.isVisible) (graph.shownFrom position)
      drawn := by
  induction position using graph.tree.downward_induction generalizing drawn with
  | step position inductionHypothesis =>
    rw [drawFrom_eq] at drew
    rw [shownFrom_eq]
    cases present : graph.tree.node? position with
    | none =>
      rw [present] at drew
      obtain rfl := Except.ok.inj drew
      rw [List.filter_singleton, isVisible_of_outside present]
      exact draws_nothing
    | some node =>
      rw [present] at drew
      by_cases visible : graph.isVisible position = true
      · simp only [if_pos visible] at drew
        rw [if_pos visible, List.filter_singleton, visible]
        exact draws_drawNode present
          (fun child listed part here => inductionHypothesis child listed here) drew
      · simp only [if_neg visible] at drew
        obtain rfl := Except.ok.inj drew
        rw [if_neg visible, List.filter_singleton, Bool.eq_false_iff.mpr visible]
        exact draws_nothing

/-- The drawing of everything below the root depicts all drawn positions. -/
theorem draws_drawNodes {drawn : Drawn} (drew : drawNodes graph options styles = .ok drawn) :
    graph.Draws options styles (graph.visibleChildren Tree.root) graph.shown drawn := by
  obtain ⟨parts, each, joined⟩ := Outcome.bind_eq_ok_iff.mp drew
  obtain rfl := Except.ok.inj joined
  have drawnParts := draws_join ((Outcome.mapM_eq_ok_iff.mp each).imp
    (fun _ _ here => draws_drawFrom here))
  rwa [flatMap_visible] at drawnParts

/-- An image comes from the drawing of the nodes and the drawing of every edge. -/
theorem exists_drawing {image : Image} {side : SideTable}
    (projected : project graph options styles = .ok (.image image side)) :
    ∃ drawn, drawNodes graph options styles = .ok drawn ∧ image.nodes = drawn.nodes ∧
      List.Forall₂ (fun edge drawnEdge => drawEdge graph options edge = .ok drawnEdge)
        graph.edges.values image.edges ∧
      side = Table.ofList (drawn.rows ++ image.edges.flatMap edgeRows) := by
  rw [project] at projected
  by_cases large : isTooLarge graph options = true
  · rw [if_pos large] at projected
    cases Except.ok.inj projected
  · rw [if_neg large] at projected
    obtain ⟨drawn, drew, further⟩ := Outcome.bind_eq_ok_iff.mp projected
    obtain ⟨edges, each, made⟩ := Outcome.bind_eq_ok_iff.mp further
    obtain ⟨rfl, rfl⟩ := Projection.image.inj (Except.ok.inj made)
    exact ⟨drawn, drew, rfl, Outcome.mapM_eq_ok_iff.mp each, rfl⟩

/-- The nodes of an image depict the drawn positions one by one. -/
theorem depicted_of_project {image : Image} {side : SideTable}
    (projected : project graph options styles = .ok (.image image side)) :
    List.Forall₂ (graph.Depicts options styles) graph.shown image.allNodes := by
  obtain ⟨drawn, drew, onTop, _, _⟩ := exists_drawing projected
  rw [Image.allNodes, onTop]
  exact (draws_drawNodes drew).depicted

end VisibleGraph

/-- The image of a tree under a filter together with its side table, where there is one. It is none where
filtering or projecting fails and where there is a message in place of an image. -/
def picture? (tree : Tree) (edges : Edges) (filter : Filter) (options : ViewOptions)
    (styles : Styles) : Option (Image × SideTable) := do
  let graph ← (applyFilter tree edges filter).toOption
  match project graph options styles with
  | .ok (.image image side) => some (image, side)
  | _ => none

/-- A picture comes from a filtered graph and its projection. -/
theorem exists_graph_of_picture? {tree : Tree} {edges : Edges} {filter : Filter}
    {options : ViewOptions} {styles : Styles} {image : Image} {side : SideTable}
    (drawn : picture? tree edges filter options styles = some (image, side)) :
    ∃ graph, applyFilter tree edges filter = .ok graph ∧
      project graph options styles = .ok (.image image side) := by
  obtain ⟨graph, filtered, found⟩ := Option.bind_eq_some_iff.mp drawn
  refine ⟨graph, Outcome.toOption_eq_some_iff.mp filtered, ?_⟩
  split at found
  · next projected =>
    obtain ⟨rfl, rfl⟩ := Prod.mk.inj (Option.some.inj found)
    exact projected
  · cases found

end DependencyDiagram
