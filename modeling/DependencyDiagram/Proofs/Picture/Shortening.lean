import DependencyDiagram.Proofs.Source.Labels
import DependencyDiagram.Proofs.View.Filterable
import DependencyDiagram.Proofs.Surfacing.Joining

/-!
# Shortened labels

In the views of reflection data a label is shortened behind its group's label, and drawing fails
where it does not go on behind it. Drawing looks at the labels of drawn nodes alone, and a node can
come to be drawn when an edge between two different nodes ends at or below it. So the views of a
source never fail for a label exactly when all nodes of that kind go on behind their groups. They do
where the names of the document let them, and they do not for every document: a prefix of an
examined assembly's name may be the label of a bucket.
-/

namespace DependencyDiagram

open DependencyDiagram.Tree

/-- An edge between two different nodes ends at or below the position. It does not depend on any filter:
there is a filter under which the node is drawn exactly if this holds of it. -/
def Tree.ConnectsBelow (tree : Tree) (edges : Edges) (position : Nat) : Prop :=
  ∃ edge ∈ edges.values, ∃ start goal, tree.find? edge.client = some start ∧
    tree.find? edge.server = some goal ∧ start ≠ goal ∧
    (tree.AtOrAbove position start ∨ tree.AtOrAbove position goal)

/-- Every node that can come to be drawn goes on behind its group, if that is not the root and promises
so. Nodes that no edge can bring into a picture may have any label. -/
def GraphSource.LabelsContinue (source : GraphSource) : Prop :=
  ∀ position node parent group, source.built.tree.node? position = some node →
    node.parent = some parent → source.built.tree.node? parent = some group → parent ≠ root →
    group.shortens = true → source.built.tree.ConnectsBelow source.edges position →
    Continues group.label node.label

/-- Every node is shown and every group expanded. It serves to show that the condition is necessary,
since under it everything connected is drawn inside its frames. -/
def Filter.unfolded (tree : Tree) : Filter where
  leafVisible := Collection.ofList (tree.nodes.map TreeNode.id)
  groupExpanded := Collection.ofList (tree.nodes.map TreeNode.id)
  parentEdges := false

/-- The options of a view under which a graph is just not too large. The guard has to let the graph pass,
or the failing label would never be looked at. -/
def ViewOptions.ample (kind : ViewKind) (graph : VisibleGraph) : ViewOptions :=
  { ViewOptions.standard kind with
    maxNodes := graph.visibleCount
    maxEdges := graph.edges.size }

variable {tree : Tree} {edges : Edges} {filter : Filter} {graph : VisibleGraph}
  {options : ViewOptions} {styles : Styles} {position : Nat}

/-- A label is drawn where it goes on behind a group that promises so. -/
theorem displayLabel_succeeds {node : TreeNode}
    (kept : ∀ parent group, node.parent = some parent → tree.node? parent = some group →
      parent ≠ root → group.shortens = true → Continues group.label node.label) :
    ∃ label, displayLabel tree options node = .ok label := by
  by_contra none
  obtain ⟨failure, failed⟩ := Outcome.fails_iff_no_value.mpr none
  obtain ⟨_, _, parent, group, below, present, inner, promises, broken, _⟩ :=
    displayLabel_eq_error_iff.mp failed
  exact broken (kept parent group below present inner promises)

/-- A shortened label of a view of reflection data goes on behind its group. -/
theorem continues_of_displayLabel {node group : TreeNode} {parent : Nat} {label : String}
    (drawn : displayLabel tree options node = .ok label) (short : options.shortLabels = true)
    (primary : options.viewType.isPrimary = true) (below : node.parent = some parent)
    (present : tree.node? parent = some group) (inner : parent ≠ root)
    (promises : group.shortens = true) : Continues group.label node.label := by
  by_contra broken
  have failed := displayLabel_eq_error_iff.mpr
    ⟨short, primary, parent, group, below, present, inner, promises, broken, rfl⟩
  cases failed.symm.trans drawn

/-- Edges between different nodes end at or below what is drawn. -/
theorem connectsBelow_of_shown (applied : applyFilter tree edges filter = .ok graph)
    (drawn : position ∈ graph.shown) : tree.ConnectsBelow edges position := by
  obtain ⟨_, lower, below, ends⟩ := (VisibleGraph.mem_shown_iff_endsAt applied).mp drawn
  obtain ⟨edge, given, first, second, leads, here⟩ := (endsAt_iff_leadsBetween applied).mp ends
  obtain ⟨_, ⟨start, foundStart, rfl⟩, ⟨goal, foundGoal, rfl⟩, apart⟩ := leads
  refine ⟨edge, given, start, goal, foundStart, foundGoal, fun same => apart (same ▸ rfl), ?_⟩
  rcases here with rfl | rfl
  · exact Or.inl (below.trans (representative_atOrAbove tree filter start))
  · exact Or.inr (below.trans (representative_atOrAbove tree filter goal))

namespace Filter

/-- Whatever is found in the tree is shown and expanded. -/
theorem contains_unfolded {id : NodeId} (found : tree.find? id = some position) :
    (unfolded tree).showsLeaf id = true ∧ (unfolded tree).expandsGroup id = true := by
  obtain ⟨node, present, rfl⟩ := find?_eq_some_iff.mp found
  have listed : node.id ∈ tree.nodes.map TreeNode.id := List.mem_map_of_mem (List.mem_of_getElem? present)
  rw [showsLeaf, expandsGroup, Collection.contains_iff, Collection.contains_iff]
  exact ⟨Collection.mem_ofList.mpr listed, Collection.mem_ofList.mpr listed⟩

/-- Where everything is expanded every node represents itself. -/
theorem representative_unfolded (inside : position < tree.size) :
    tree.representative (unfolded tree) position = position := by
  apply representative_eq_self_iff.mpr
  rw [outermostCollapsed?_eq_none_iff]
  intro upper above
  obtain ⟨node, present⟩ := node?_of_lt (Nat.lt_trans (lt_of_above above) inside)
  simp [isCollapsedAt, isExpandedAt, present, (contains_unfolded (find?_id present)).2]

end Filter

/-- Where everything is expanded, what edges between different nodes end at or below is drawn. -/
theorem shown_of_connectsBelow (applied : applyFilter tree edges (.unfolded tree) = .ok graph)
    (connected : tree.ConnectsBelow edges position) (below : position ≠ root) :
    position ∈ graph.shown := by
  obtain ⟨edge, given, start, goal, foundStart, foundGoal, apart, here⟩ := connected
  obtain ⟨startNode, startPresent, _⟩ := find?_eq_some_iff.mp foundStart
  obtain ⟨goalNode, goalPresent, _⟩ := find?_eq_some_iff.mp foundGoal
  have shown : (Filter.unfolded tree).showsEdge edge = true := by
    rw [Filter.showsEdge, (Filter.contains_unfolded foundStart).1,
      (Filter.contains_unfolded foundGoal).1, Bool.and_self]
  have leads : tree.LeadsBetween (.unfolded tree) edge start goal :=
    ⟨shown, ⟨start, foundStart, Filter.representative_unfolded (lt_size_of_node? startPresent)⟩,
      ⟨goal, foundGoal, Filter.representative_unfolded (lt_size_of_node? goalPresent)⟩, apart⟩
  have ends (lower : Nat) (own : start = lower ∨ goal = lower) : graph.EndsAt lower :=
    (endsAt_iff_leadsBetween applied).mpr ⟨edge, given, start, goal, leads, own⟩
  rw [VisibleGraph.mem_shown_iff_endsAt applied]
  refine ⟨below, ?_⟩
  rcases here with above | above
  · exact ⟨start, above, ends start (Or.inl rfl)⟩
  · exact ⟨goal, above, ends goal (Or.inr rfl)⟩

/-- Under the options made for it a graph is projected to an image, if at all. -/
theorem exists_image_of_ample {kind : ViewKind} {projection : Projection}
    (projected : project graph (.ample kind graph) styles = .ok projection) :
    ∃ image side, projection = .image image side := by
  have fits : isTooLarge graph (.ample kind graph) = false := by
    simp [isTooLarge, ViewOptions.ample]
  rw [project, fits, if_neg Bool.false_ne_true] at projected
  obtain ⟨_, _, further⟩ := Outcome.bind_eq_ok_iff.mp projected
  obtain ⟨_, _, returned⟩ := Outcome.bind_eq_ok_iff.mp further
  exact ⟨_, _, (Except.ok.inj returned).symm⟩

namespace GraphSource

variable {source : GraphSource}

/-- Where labels go on behind their groups, every filtered graph of a source is projected. -/
theorem project_of_labelsContinue (kept : source.LabelsContinue)
    (applied : applyFilter source.built.tree source.edges filter = .ok graph) :
    ∃ projection, project graph options styles = .ok projection := by
  refine project_succeeds_of_shown applied (fun position drawn node present => ?_)
  rw [VisibleGraph.tree_of_applyFilter applied] at present ⊢
  refine displayLabel_succeeds (fun parent group below above inner promises => ?_)
  exact kept position node parent group present below above inner promises
    (connectsBelow_of_shown applied drawn)

/-- Where the unfolded graph of a source is projected, labels go on behind their groups. -/
theorem labelsContinue_of_project {kind : ViewKind} (primary : kind.isPrimary = true)
    (applied : applyFilter source.built.tree source.edges (.unfolded source.built.tree) = .ok graph)
    {projection : Projection} (projected : project graph (.ample kind graph) styles = .ok projection) :
    source.LabelsContinue := by
  intro position node parent group present below above inner promises connected
  obtain ⟨image, side, rfl⟩ := exists_image_of_ample projected
  have notRoot : position ≠ root := by
    rintro rfl
    have named := parent?_root source.built.tree
    rw [parent?, present, Option.bind_some, below] at named
    cases named
  have drawn := shown_of_connectsBelow applied connected notRoot
  obtain ⟨drawnNode, _, other, here, _, labelled, _⟩ :=
    Outcome.exists_of_mem_left (VisibleGraph.depicted_of_project projected) drawn
  rw [VisibleGraph.tree_of_applyFilter applied] at here labelled
  obtain rfl := Option.some.inj (present.symm.trans here)
  exact continues_of_displayLabel labelled rfl primary below above inner promises

end GraphSource

/-- The views of reflection data never fail for a label exactly when all labels that can come to be drawn
go on behind their groups. They then do not fail at all, and the names of a document can make sure of it.
The first part is about all filters and options at once, and the condition mentions neither. The last
part leads from the built source back to its data, where the condition can be checked without building
anything. -/
theorem shortened_labels_exact {kind : ViewKind} {data : ViewData} {grouping : HierarchyOptions}
    {source : GraphSource} (primary : kind.isPrimary = true)
    (built : buildSource kind data grouping = .ok source) :
    ((∀ filter options styles graph, options.viewType = kind →
        applyFilter source.built.tree source.edges filter = .ok graph →
        ∀ failure, project graph options styles = .error failure →
          failure.kind ≠ .invariantViolation) ↔ source.LabelsContinue) ∧
      (source.LabelsContinue → ∀ filter options styles graph,
        applyFilter source.built.tree source.edges filter = .ok graph →
        ∃ projection, project graph options styles = .ok projection) ∧
      (data.reflection.LabelsFit kind → source.LabelsContinue) := by
  have succeeds (kept : source.LabelsContinue) (filter options styles graph)
      (applied : applyFilter source.built.tree source.edges filter = .ok graph) :
      ∃ projection, project graph options styles = .ok projection :=
    GraphSource.project_of_labelsContinue kept applied
  refine ⟨⟨fun never => ?_, fun kept => ?_⟩, succeeds, fun fit => ?_⟩
  · obtain ⟨graph, applied⟩ :=
      applyFilter_succeeds (endsOnLeaves_of_buildSource built) (.unfolded source.built.tree)
    cases projected : project graph (.ample kind graph) Styles.plain with
    | ok projection => exact GraphSource.labelsContinue_of_project primary applied projected
    | error failure =>
      obtain ⟨group, node, rfl⟩ := exists_promise_of_project applied projected
      exact absurd rfl (never _ _ _ graph rfl applied _ projected)
  · intro filter options styles graph _ applied failure failed
    obtain ⟨projection, projected⟩ := succeeds kept filter options styles graph applied
    cases failed.symm.trans projected
  · intro position node parent group present below above inner promises _
    exact keepsPromises_of_buildSource fit built position node parent group present below above inner
      promises

namespace Sample

/-- Examined assemblies with a common prefix, one of which refers to the other and to assemblies
that were not examined. -/
def referenceData : ViewData :=
  ⟨{ Reflection.empty with
      executables := ["App"]
      assemblies := .ofList [("App", ⟨["Core.Web"], []⟩), ("Core.Data", ⟨["System.Xml"], []⟩),
        ("Core.Web", ⟨["Core.Data", "Vendor"], []⟩)] }, []⟩

/-- An examined assembly whose name has the label of a bucket for its prefix, and refers to an
assembly of that bucket. -/
def bucketData : ViewData :=
  ⟨{ Reflection.empty with assemblies := .ofList [("3rd-party.Core", ⟨["Vendor"], []⟩)] }, []⟩

/-- The kind of the failure of projecting everything there is in the references view. -/
def unfoldedFailure? (data : ViewData) : Option FailureKind := do
  let source ← (buildSource .references data ⟨true, false⟩).toOption
  let graph ← (applyFilter source.built.tree source.edges (.unfolded source.built.tree)).toOption
  match project graph (.standard .references) .plain with
  | .error failure => some failure.kind
  | .ok _ => none

end Sample

/-- The names of the sample's assemblies let the promises of its groups be kept, so that its views
do not fail whatever is shown. -/
theorem referenceData_shortened :
    ∃ source, buildSource .references Sample.referenceData ⟨true, true⟩ = .ok source ∧
      (∀ filter options styles graph,
        applyFilter source.built.tree source.edges filter = .ok graph →
        ∃ projection, project graph options styles = .ok projection) ∧
      (source.built.tree.node? 1).map TreeNode.kind = some (.group true) := by
  have computed : (buildSource .references Sample.referenceData ⟨true, true⟩).toOption.map
      (fun source => (source.built.tree.node? 1).map TreeNode.kind) = some (some (.group true)) := by
    decide
  obtain ⟨source, found, kind⟩ := Option.map_eq_some_iff.mp computed
  have built := Outcome.toOption_eq_some_iff.mp found
  have fit : Sample.referenceData.reflection.LabelsFit .references := by
    rw [Reflection.LabelsFit]
    decide
  have primary : ViewKind.references.isPrimary = true := rfl
  obtain ⟨_, succeeds, names⟩ := shortened_labels_exact primary built
  exact ⟨source, built, succeeds (names fit), kind⟩

/-- Projecting the other sample fails for a label: the examined assembly makes the group that the
assembly it refers to is put into. -/
theorem bucketData_fails :
    ¬ ∀ (kind : ViewKind) (data : ViewData) (grouping : HierarchyOptions) (source : GraphSource),
      kind.isPrimary = true → buildSource kind data grouping = .ok source →
      ∀ filter options styles graph, options.viewType = kind →
        applyFilter source.built.tree source.edges filter = .ok graph →
        ∀ failure, project graph options styles = .error failure →
          failure.kind ≠ .invariantViolation := by
  have computed : Sample.unfoldedFailure? Sample.bucketData = some .invariantViolation := by decide
  rw [Sample.unfoldedFailure?] at computed
  intro never
  obtain ⟨source, built, further⟩ := Option.bind_eq_some_iff.mp computed
  obtain ⟨graph, applied, failed⟩ := Option.bind_eq_some_iff.mp further
  rw [Outcome.toOption_eq_some_iff] at built applied
  split at failed
  · next failure projected =>
    exact never .references _ _ source rfl built _ (.standard .references) _ graph rfl applied failure
      projected (Option.some.inj failed)
  · cases failed

end DependencyDiagram
