import DependencyDiagram.Proofs.Picture.Layout
import DependencyDiagram.Proofs.Surfacing.DrawnEdges

/-!
# Connected material

An image shows the connected material of a tree and nothing else. A box stands for a node on which an
edge ends, a frame for an expanded group with such a node at or below it. Every node of the image stands
for one node of the tree and lies directly inside the frame of that node's parent, where the root's frame
is the image itself, and siblings keep the tree's order.

Nodes without connected material leave no trace, neither a box nor an empty frame. Whether a node has any
is asked of the edges that the filter leaves and not of those that were loaded.
-/

namespace DependencyDiagram

/-- The form in which a node is drawn: a box for a leaf or a collapsed group, a frame for an expanded
group. A leaf is drawn as a box whatever the filter says of its identifier. -/
def ImageNode.HasFormOf (filter : Filter) (node : TreeNode) : ImageNode → Prop
  | .leaf _ => node.isLeaf = true
  | .group _ => node.isLeaf = false ∧ filter.expandsGroup node.id = false
  | .cluster _ _ _ => node.isLeaf = false ∧ filter.expandsGroup node.id = true

namespace ImageNode

variable {filter : Filter} {node : TreeNode} {nodes : List ImageNode}

/-- Only a box for a leaf has the form of a leaf. -/
theorem exists_leaf_iff (leaf : node.isLeaf = true) :
    (∃ box, .leaf box ∈ nodes ∧ box.id = node.id) ↔
      ∃ drawn ∈ nodes, drawn.id = node.id ∧ drawn.HasFormOf filter node := by
  constructor
  · rintro ⟨box, listed, named⟩
    exact ⟨.leaf box, listed, named, leaf⟩
  · rintro ⟨drawn, listed, named, form⟩
    cases drawn with
    | leaf box => exact ⟨box, listed, named⟩
    | group box => exact absurd (leaf.symm.trans form.1) Bool.noConfusion
    | cluster id label children => exact absurd (leaf.symm.trans form.1) Bool.noConfusion

/-- Only a box for a group has the form of a collapsed group. -/
theorem exists_group_iff (isGroup : node.isLeaf = false)
    (closed : filter.expandsGroup node.id = false) :
    (∃ box, .group box ∈ nodes ∧ box.id = node.id) ↔
      ∃ drawn ∈ nodes, drawn.id = node.id ∧ drawn.HasFormOf filter node := by
  constructor
  · rintro ⟨box, listed, named⟩
    exact ⟨.group box, listed, named, isGroup, closed⟩
  · rintro ⟨drawn, listed, named, form⟩
    cases drawn with
    | leaf box => exact absurd (isGroup.symm.trans form) Bool.noConfusion
    | group box => exact ⟨box, listed, named⟩
    | cluster id label children => exact absurd (closed.symm.trans form.2) Bool.noConfusion

/-- Only a frame has the form of an expanded group. -/
theorem exists_cluster_iff (isGroup : node.isLeaf = false)
    (expanded : filter.expandsGroup node.id = true) :
    (∃ label children, .cluster node.id label children ∈ nodes) ↔
      ∃ drawn ∈ nodes, drawn.id = node.id ∧ drawn.HasFormOf filter node := by
  constructor
  · rintro ⟨label, children, listed⟩
    exact ⟨.cluster node.id label children, listed, rfl, isGroup, expanded⟩
  · rintro ⟨drawn, listed, named, form⟩
    cases drawn with
    | leaf box => exact absurd (isGroup.symm.trans form) Bool.noConfusion
    | group box => exact absurd (expanded.symm.trans form.2) Bool.noConfusion
    | cluster id label children =>
      have own : id = node.id := named
      exact ⟨label, children, own ▸ listed⟩

end ImageNode

/-- The nodes are those directly inside the frame of a group, or those on top of the image when the group
is the root. An image lists its frames nested in one another, and so the frame of a group is found among
all nodes of the image, at whatever depth. -/
def Image.Frames (image : Image) (tree : Tree) (group : Nat) (children : List ImageNode) : Prop :=
  (group = Tree.root ∧ children = image.nodes) ∨
    (group ≠ Tree.root ∧ ∃ node label, tree.node? group = some node ∧
      .cluster node.id label children ∈ image.allNodes)

/-- The image shows what is connected by the graph's edges, every node once, inside the frame of its
parent and in the tree's order. The three conditions on boxes and frames say for every node of the tree
whether it is drawn. The others say of everything that is drawn where it lies and what lies beside it, so
that the nodes of the image are determined but for labels and shapes. -/
structure Image.ShowsConnected (image : Image) (tree : Tree) (filter : Filter)
    (graph : VisibleGraph) : Prop where
  leafBox_iff : ∀ position node, tree.node? position = some node → node.isLeaf = true →
    ((∃ box, .leaf box ∈ image.allNodes ∧ box.id = node.id) ↔ graph.IsEnd node.id)
  groupBox_iff : ∀ position node, tree.node? position = some node → position ≠ Tree.root →
    node.isLeaf = false → filter.expandsGroup node.id = false →
    ((∃ box, .group box ∈ image.allNodes ∧ box.id = node.id) ↔ graph.IsEnd node.id)
  frame_iff : ∀ position node, tree.node? position = some node → position ≠ Tree.root →
    node.isLeaf = false → filter.expandsGroup node.id = true →
    ((∃ label children, .cluster node.id label children ∈ image.allNodes) ↔
      ∃ lower below, tree.AtOrAbove position lower ∧ tree.node? lower = some below ∧
        graph.IsEnd below.id)
  once : (image.allNodes.map ImageNode.id).Nodup
  placed : ∀ drawn ∈ image.allNodes, ∃ position node parent children,
    tree.node? position = some node ∧ drawn.id = node.id ∧ drawn.HasFormOf filter node ∧
      tree.parent? position = some parent ∧ image.Frames tree parent children ∧ drawn ∈ children
  ordered : ∀ group children, image.Frames tree group children →
    children.map ImageNode.id =
      ((tree.children group).flatMap tree.idsAt).filter (· ∈ image.allNodes.map ImageNode.id)

namespace VisibleGraph

variable {graph : VisibleGraph} {options : ViewOptions} {styles : Styles} {image : Image}

/-- What depicts a position below the root has the form of the node there. -/
theorem hasFormOf_of_depicts {position : Nat} {node : TreeNode} {drawn : ImageNode}
    (present : graph.tree.node? position = some node) (below : position ≠ Tree.root)
    (depicts : graph.Depicts options styles position drawn) :
    drawn.HasFormOf graph.filter node := by
  obtain ⟨other, here, _, _, form⟩ := depicts
  obtain rfl := Option.some.inj (present.symm.trans here)
  cases drawn with
  | leaf box => exact form.1
  | group box =>
    have isGroup : node.isLeaf = false := form.1
    have closed : graph.isExpanded position = false := form.2.1
    exact ⟨isGroup, by simpa [isExpanded, Tree.isOpenGroup, present, below, isGroup] using closed⟩
  | cluster id label children =>
    have isGroup : node.isLeaf = false := form.1
    have expanded : graph.isExpanded position = true := form.2.1
    exact ⟨isGroup, by simpa [isExpanded, Tree.isOpenGroup, present, below, isGroup] using expanded⟩

/-- Nodes that depict positions one by one carry the identifiers there. -/
theorem ids_of_depicted {all : List Nat} {nodes : List ImageNode}
    (depicted : List.Forall₂ (graph.Depicts options styles) all nodes) :
    nodes.map ImageNode.id = all.flatMap graph.tree.idsAt := by
  induction depicted with
  | nil => rfl
  | cons here _ inductionHypothesis =>
    rw [List.map_cons, List.flatMap_cons, idsAt_of_depicts here, inductionHypothesis]
    rfl

/-- What depicts the position of an identifier stands among the drawn positions for it. -/
theorem position_of_depicts {place position : Nat} {node : TreeNode} {drawn : ImageNode}
    (present : graph.tree.node? position = some node)
    (depicts : graph.Depicts options styles place drawn) (named : drawn.id = node.id) :
    place = position := by
  obtain ⟨other, here, same, _⟩ := depicts
  exact Tree.position_unique here present (same.symm.trans named)

/-- A child of the root or of a drawn frame is drawn exactly when it is visible. -/
theorem child_mem_shown_iff {group child : Nat} (listed : child ∈ graph.tree.children group)
    (framed : group = Tree.root ∨ group ∈ graph.shown ∧ graph.isExpanded group = true) :
    child ∈ graph.shown ↔ graph.isVisible child = true := by
  have named := Tree.mem_children.mp listed
  have below : child ≠ Tree.root := by
    rintro rfl
    rw [Tree.parent?_root] at named
    cases named
  have exposed : graph.tree.outermostCollapsed? graph.filter child = none := by
    rw [Tree.outermostCollapsed?_of_parent graph.filter named]
    rcases framed with rfl | ⟨drawn, expanded⟩
    · rw [Tree.outermostCollapsed?_of_top graph.filter graph.tree.parent?_root]
      rfl
    · obtain ⟨node, present, isGroup⟩ := Tree.group_of_parent named
      rw [isExpanded_of_group present isGroup, Bool.not_eq_true'] at expanded
      rw [(mem_shown.mp drawn).2.2, expanded]
      rfl
  rw [mem_shown]
  exact ⟨fun drawn => drawn.2.1, fun visible => ⟨below, visible, exposed⟩⟩

section Depicted

variable (depicted : List.Forall₂ (graph.Depicts options styles) graph.shown image.allNodes)
include depicted

/-- No identifier occurs twice in an image. -/
theorem ids_allNodes_nodup : (image.allNodes.map ImageNode.id).Nodup := by
  rw [ids_of_depicted depicted, List.nodup_flatMap]
  refine ⟨fun position _ => ?_, graph.shown_nodup.imp (fun different => ?_)⟩
  · rw [Tree.idsAt]
    cases graph.tree.node? position <;> simp
  · intro id first second
    rw [Tree.mem_idsAt] at first second
    exact different (Option.some.inj (first.symm.trans second))

/-- Two nodes of an image with one identifier are the same. -/
theorem eq_of_mem_allNodes {first second : ImageNode} (left : first ∈ image.allNodes)
    (right : second ∈ image.allNodes) (same : first.id = second.id) : first = second :=
  List.inj_on_of_nodup_map (ids_allNodes_nodup depicted) left right same

/-- The node at a position is drawn in its form exactly when an edge ends at or below it. -/
theorem exists_form_iff {tree : Tree} {edges : Edges} {filter : Filter}
    (applied : applyFilter tree edges filter = .ok graph) {position : Nat} {node : TreeNode}
    (present : tree.node? position = some node) (below : position ≠ Tree.root) :
    (∃ drawn ∈ image.allNodes, drawn.id = node.id ∧ drawn.HasFormOf filter node) ↔
      ∃ lower, tree.AtOrAbove position lower ∧ graph.EndsAt lower := by
  have shown : position ∈ graph.shown ↔
      position ≠ Tree.root ∧ ∃ lower, tree.AtOrAbove position lower ∧ graph.EndsAt lower :=
    mem_shown_iff_endsAt applied
  obtain rfl := tree_of_applyFilter applied
  obtain rfl := filter_of_applyFilter applied
  constructor
  · rintro ⟨drawn, listed, named, _⟩
    obtain ⟨place, among, depicts⟩ := Outcome.exists_of_mem_right depicted listed
    have here : drawn.id ∈ graph.tree.idsAt place := by simp [idsAt_of_depicts depicts]
    rw [Tree.mem_idsAt, named, Tree.find?_id present] at here
    exact (shown.mp (Option.some.inj here ▸ among)).2
  · intro ends
    obtain ⟨drawn, listed, depicts⟩ := Outcome.exists_of_mem_left depicted (shown.mpr ⟨below, ends⟩)
    refine ⟨drawn, listed, ?_, hasFormOf_of_depicts present below depicts⟩
    have named := idsAt_of_depicts depicts
    simpa [Tree.idsAt, present, eq_comm] using named

/-- An identifier of the tree is in the image exactly when its position is drawn. -/
theorem id_mem_allNodes_iff {position : Nat} {node : TreeNode}
    (present : graph.tree.node? position = some node) :
    node.id ∈ image.allNodes.map ImageNode.id ↔ position ∈ graph.shown := by
  rw [ids_of_depicted depicted, List.mem_flatMap]
  simp only [Tree.mem_idsAt, Tree.find?_id present, Option.some.injEq, exists_eq_right']

/-- A leaf or a collapsed group is drawn in its form exactly when an edge ends on it. -/
theorem exists_box_iff {tree : Tree} {edges : Edges} {filter : Filter}
    (applied : applyFilter tree edges filter = .ok graph) {position : Nat} {node : TreeNode}
    (present : tree.node? position = some node) (below : position ≠ Tree.root)
    (boxed : node.isLeaf = true ∨ filter.expandsGroup node.id = false) :
    (∃ drawn ∈ image.allNodes, drawn.id = node.id ∧ drawn.HasFormOf filter node) ↔
      graph.IsEnd node.id := by
  rw [exists_form_iff depicted applied present below]
  have collapsed : node.isLeaf = true ∨ tree.isCollapsedAt filter position = true :=
    boxed.imp_right (fun closed => by
      simp [Tree.isCollapsedAt, Tree.isExpandedAt, present, below, closed])
  constructor
  · rintro ⟨lower, further, ends⟩
    obtain ⟨other, here, ended⟩ := endsAt_of_endsAt_below applied present collapsed further ends
    rw [tree_of_applyFilter applied, present] at here
    exact Option.some.inj here ▸ ended
  · intro ended
    exact ⟨position, Relation.ReflTransGen.refl, node, tree_of_applyFilter applied ▸ present, ended⟩

/-- The parent of a drawn position is the root or has a frame. A position is drawn only if nothing above
it is collapsed. So its parent, if it is not the root, is drawn as well and is expanded, and an expanded
group is drawn as a cluster. -/
theorem exists_frames {position parent : Nat} (drawn : position ∈ graph.shown)
    (named : graph.tree.parent? position = some parent) :
    ∃ children, image.Frames graph.tree parent children := by
  by_cases top : parent = Tree.root
  · exact ⟨image.nodes, Or.inl ⟨top, rfl⟩⟩
  · obtain ⟨_, visible, exposed⟩ := mem_shown.mp drawn
    have notCollapsed := Tree.outermostCollapsed?_eq_none_iff.mp exposed
    have parentShown : parent ∈ graph.shown := by
      refine mem_shown.mpr ⟨top, isVisible_of_parent named visible, ?_⟩
      exact Tree.outermostCollapsed?_eq_none_iff.mpr
        (fun upper above => notCollapsed upper (above.tail named))
    obtain ⟨group, present, isGroup⟩ := Tree.group_of_parent named
    have expanded : graph.isExpanded parent = true := by
      rw [isExpanded_of_group present isGroup, notCollapsed parent (.single named)]
      rfl
    obtain ⟨frame, listed, depicts⟩ := Outcome.exists_of_mem_left depicted parentShown
    obtain ⟨other, here, same, _, form⟩ := depicts
    obtain rfl := Option.some.inj (present.symm.trans here)
    cases frame with
    | leaf box => exact absurd (isGroup.symm.trans form.1) Bool.false_ne_true
    | group box => exact absurd (form.2.1.symm.trans expanded) Bool.false_ne_true
    | cluster id label children =>
      have own : id = group.id := same
      exact ⟨children, Or.inr ⟨top, group, label, present, own ▸ listed⟩⟩

end Depicted

section Framed

variable (depicted : List.Forall₂ (graph.Depicts options styles) graph.shown image.allNodes)
  (level : image.nodes.map ImageNode.id =
    (graph.visibleChildren Tree.root).flatMap graph.tree.idsAt)
include depicted level

/-- The frame of a group holds its visible children in order, and all of them are nodes of the
image. -/
theorem children_of_frames {group : Nat} {children : List ImageNode}
    (frames : image.Frames graph.tree group children) :
    (group = Tree.root ∨ group ∈ graph.shown ∧ graph.isExpanded group = true) ∧
      children.map ImageNode.id = (graph.visibleChildren group).flatMap graph.tree.idsAt ∧
      ∀ child ∈ children, child ∈ image.allNodes := by
  rcases frames with ⟨rfl, rfl⟩ | ⟨_, node, label, present, listed⟩
  · exact ⟨Or.inl rfl, level, fun _ => ImageNode.mem_flattenAll_of_mem⟩
  · obtain ⟨place, among, depicts⟩ := Outcome.exists_of_mem_right depicted listed
    obtain rfl := position_of_depicts present depicts rfl
    obtain ⟨_, _, _, _, _, expanded, held⟩ := depicts
    exact ⟨Or.inr ⟨among, expanded⟩, held,
      fun child inside => ImageNode.child_mem_flattenAll inside _ listed⟩

/-- A drawn node lies in the frame of its parent. -/
theorem mem_of_frames {position parent : Nat} {drawn : ImageNode} {children : List ImageNode}
    (listed : drawn ∈ image.allNodes) (depicts : graph.Depicts options styles position drawn)
    (shown : position ∈ graph.shown) (named : graph.tree.parent? position = some parent)
    (frames : image.Frames graph.tree parent children) : drawn ∈ children := by
  obtain ⟨_, held, inside⟩ := children_of_frames depicted level frames
  have among : drawn.id ∈ children.map ImageNode.id := by
    rw [held, List.mem_flatMap]
    refine ⟨position, List.mem_filter.mpr ⟨Tree.mem_children.mpr named, (mem_shown.mp shown).2.1⟩, ?_⟩
    simp [idsAt_of_depicts depicts]
  obtain ⟨child, member, same⟩ := List.mem_map.mp among
  exact eq_of_mem_allNodes depicted (inside child member) listed same ▸ member

/-- A frame holds what is drawn of the group's children, in the tree's order. -/
theorem ids_of_frames {group : Nat} {children : List ImageNode}
    (frames : image.Frames graph.tree group children) :
    children.map ImageNode.id = ((graph.tree.children group).flatMap graph.tree.idsAt).filter
      (· ∈ image.allNodes.map ImageNode.id) := by
  obtain ⟨framed, held, _⟩ := children_of_frames depicted level frames
  rw [held, visibleChildren, List.filter_flatMap, ← flatMap_visible, List.flatMap_assoc]
  apply List.flatMap_congr
  intro child listed
  obtain ⟨node, present⟩ := Tree.node?_of_lt (Tree.lt_size_of_mem_children listed)
  have single : graph.tree.idsAt child = [node.id] := by simp [Tree.idsAt, present]
  have drawn := (id_mem_allNodes_iff depicted present).trans (child_mem_shown_iff listed framed)
  rw [single, List.filter_singleton, List.filter_singleton]
  by_cases visible : graph.isVisible child = true
  · simp [single, visible, drawn.mpr visible]
  · simp [visible, mt drawn.mp visible]

end Framed

end VisibleGraph

/-- Whatever the options and styles, an image of a filtered graph shows exactly the connected material of
the tree. It holds of every tree, every set of edges and every filter under which there is an image at
all. The options decide about labels and limits, and the styles about shapes, and neither has a part in
what is shown where. -/
theorem image_shows_connected {tree : Tree} {edges : Edges} {filter : Filter}
    {graph : VisibleGraph} {options : ViewOptions} {styles : Styles} {image : Image}
    {side : SideTable} (applied : applyFilter tree edges filter = .ok graph)
    (projected : project graph options styles = .ok (.image image side)) :
    image.ShowsConnected tree filter graph := by
  obtain ⟨drawn, drew, onTop, _, _⟩ := VisibleGraph.exists_drawing projected
  have draws := VisibleGraph.draws_drawNodes drew
  have level := onTop ▸ draws.level
  have depicted : List.Forall₂ (graph.Depicts options styles) graph.shown image.allNodes := by
    rw [Image.allNodes, onTop]
    exact draws.depicted
  refine ⟨?leafBox_iff, ?groupBox_iff, ?frame_iff, VisibleGraph.ids_allNodes_nodup depicted,
    ?placed, ?ordered⟩
  case leafBox_iff =>
    intro position node present leaf
    have below : position ≠ Tree.root := Tree.ne_root_of_leaf present leaf
    exact (ImageNode.exists_leaf_iff leaf).trans
      (VisibleGraph.exists_box_iff depicted applied present below (Or.inl leaf))
  case groupBox_iff =>
    intro position node present below isGroup closed
    exact (ImageNode.exists_group_iff isGroup closed).trans
      (VisibleGraph.exists_box_iff depicted applied present below (Or.inr closed))
  case frame_iff =>
    intro position node present below isGroup expanded
    have ends : (∃ lower, tree.AtOrAbove position lower ∧ graph.EndsAt lower) ↔
        ∃ lower below, tree.AtOrAbove position lower ∧ tree.node? lower = some below ∧
          graph.IsEnd below.id := by
      simp only [VisibleGraph.EndsAt, VisibleGraph.tree_of_applyFilter applied, exists_and_left]
    rw [← ends, ← VisibleGraph.exists_form_iff depicted applied present below]
    exact ImageNode.exists_cluster_iff isGroup expanded
  case placed =>
    intro node listed
    obtain ⟨position, shown, depicts⟩ := Outcome.exists_of_mem_right depicted listed
    obtain ⟨held, present, named, _⟩ := id depicts
    have below := (VisibleGraph.mem_shown.mp shown).1
    obtain ⟨parent, child⟩ := Tree.exists_parent (Tree.lt_size_of_node? present) below
    obtain ⟨children, frames⟩ := VisibleGraph.exists_frames depicted shown child
    have inside := VisibleGraph.mem_of_frames depicted level listed depicts shown child frames
    have form := VisibleGraph.hasFormOf_of_depicts present below depicts
    obtain rfl := VisibleGraph.tree_of_applyFilter applied
    obtain rfl := VisibleGraph.filter_of_applyFilter applied
    exact ⟨position, held, parent, children, present, named, form, child, frames, inside⟩
  case ordered =>
    obtain rfl := VisibleGraph.tree_of_applyFilter applied
    exact fun group children frames => VisibleGraph.ids_of_frames depicted level frames

/-- The image of the sample has the collapsed group as a box, with nothing of what is inside
it, and the leaf of the expanded group inside a frame. -/
theorem image_of_sample_shows_connected :
    ∃ graph image side, applyFilter Sample.tree Sample.edges Sample.filter = .ok graph ∧
      project graph (.standard .custom) .plain = .ok (.image image side) ∧
      image.allNodes.map ImageNode.id = [Sample.outer, Sample.opened, Sample.caller] ∧
      image.ShowsConnected Sample.tree Sample.filter graph := by
  have drawn : (picture? Sample.tree Sample.edges Sample.filter (.standard .custom) .plain).map
      (fun picture => picture.1.allNodes.map ImageNode.id) =
        some [Sample.outer, Sample.opened, Sample.caller] := by decide
  obtain ⟨⟨image, side⟩, found, ids⟩ := Option.map_eq_some_iff.mp drawn
  obtain ⟨graph, applied, projected⟩ := exists_graph_of_picture? found
  exact ⟨graph, image, side, applied, projected, ids, image_shows_connected applied projected⟩

end DependencyDiagram
