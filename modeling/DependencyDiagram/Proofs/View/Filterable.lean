import DependencyDiagram.View.Assembly
import DependencyDiagram.Proofs.Source.Endpoints
import DependencyDiagram.Proofs.Picture.Success

/-!
# Sources under any filter

Where edges end on leaves, filtering cannot fail: an endpoint is always found, and collapsing moves it to
a group that is not expanded. The filter may name whatever it likes. A custom view, whose groups promise
nothing about labels, is then assembled under every filter.

In the views of reflection data a label may fail to fit its group. There only the filtering is certain to
succeed.
-/

namespace DependencyDiagram

/-- The representative of a leaf is the leaf itself or a collapsed group, never an expanded
one. -/
theorem Tree.isOpenGroup_representative {tree : Tree} (filter : Filter) {position : Nat}
    {node : TreeNode} (present : tree.node? position = some node) (leaf : node.isLeaf = true) :
    tree.isOpenGroup filter (tree.representative filter position) = false := by
  rw [representative]
  cases outer : tree.outermostCollapsed? filter position with
  | none => simp [isOpenGroup, present, leaf]
  | some group =>
    have collapsed := (outermostCollapsed?_eq_some outer).2.1
    rw [isCollapsedAt, isExpandedAt, Bool.and_eq_true, Bool.not_eq_true'] at collapsed
    rw [Option.getD_some, isOpenGroup]
    cases held : tree.node? group with
    | none => rfl
    | some above =>
      rw [held, Option.any_some] at collapsed
      simp [collapsed.2]

/-- Edges between leaves can be filtered by any filter. -/
theorem applyFilter_succeeds {source : GraphSource} (leaves : source.EndsOnLeaves)
    (filter : Filter) :
    ∃ graph, applyFilter source.built.tree source.edges filter = .ok graph := by
  by_contra fails
  rcases applyFilter_fails_iff.mp (Outcome.fails_iff_no_value.mpr fails) with
    ⟨edge, listed, _, missing⟩ | ⟨_, edge, listed, _, client, server, first, second, _, ends⟩
  · obtain ⟨⟨client, here, clientNode, clientId, _⟩, ⟨server, there, serverNode, serverId, _⟩⟩ :=
      leaves edge listed
    exact missing ⟨⟨client, here, clientNode, clientId⟩, ⟨server, there, serverNode, serverId⟩⟩
  · have closed {id : NodeId} {position : Nat} (held : source.built.tree.HasLeaf id)
        (found : source.built.tree.find? id = some position) :
        source.built.tree.isOpenGroup filter
          (source.built.tree.representative filter position) = false := by
      obtain ⟨place, node, present, rfl, leaf⟩ := held
      obtain rfl := Option.some.inj ((Tree.find?_id present).symm.trans found)
      exact Tree.isOpenGroup_representative filter present leaf
    obtain ⟨clientLeaf, serverLeaf⟩ := leaves edge listed
    rcases ends with onClient | onServer
    · exact Bool.false_ne_true ((closed clientLeaf first).symm.trans onClient)
    · exact Bool.false_ne_true ((closed serverLeaf second).symm.trans onServer)

/-- A source that was built can be filtered by any filter, and a custom one can be assembled under any
filter, options and styles. Filters come from outside and outlive the data that they were made for, so
they may name leaves and groups which are no longer there, or groups among the leaves. None of this makes
filtering fail. -/
theorem built_source_filterable {kind : ViewKind} {data : ViewData} {grouping : HierarchyOptions}
    {source : GraphSource} (built : buildSource kind data grouping = .ok source) :
    (∀ filter, ∃ graph, applyFilter source.built.tree source.edges filter = .ok graph) ∧
      (kind = .custom → ∀ styles filter options,
        ∃ view, assemble styles source filter options = .ok view) := by
  have leaves := endsOnLeaves_of_buildSource built
  refine ⟨applyFilter_succeeds leaves, ?_⟩
  rintro rfl styles filter options
  obtain ⟨graph, applied⟩ := applyFilter_succeeds leaves filter
  have promiseless : graph.tree.Promiseless :=
    VisibleGraph.tree_of_applyFilter applied ▸ Source.promiseless_custom built
  have labelled (node : TreeNode) : ∃ label, displayLabel graph.tree options node = .ok label :=
    ⟨node.label, displayLabel_of_promiseless promiseless node⟩
  obtain ⟨projection, projected⟩ : ∃ projection, project graph options styles = .ok projection :=
    project_succeeds applied labelled
  have visible : inStage .visibility options.viewType
      (applyFilter source.built.tree source.edges filter) = .ok graph := by
    rw [applied]
    rfl
  have drawn : inStage .projection options.viewType (project graph options styles) =
      .ok projection := by
    rw [projected]
    rfl
  exact ⟨_, Outcome.bind_eq_ok_iff.mpr ⟨graph, visible,
    Outcome.bind_eq_ok_iff.mpr ⟨projection, drawn, rfl⟩⟩⟩

/-- Three nodes, two of them in layers below one another. -/
def Sample.customNodes : List CustomNode := [
  ⟨"Caller", none, some "Open", ["Deep", "Flat"]⟩,
  ⟨"Deep", none, some "Outer/Inner", ["Flat"]⟩,
  ⟨"Flat", some "flat", some "Outer", []⟩]

/-- The sample's source is built, so it can be filtered by any filter and assembled under any
options. -/
theorem source_of_sample_filterable :
    ∃ source, buildSource .custom ⟨.empty, Sample.customNodes⟩ ⟨true, false⟩ = .ok source ∧
      (∀ filter, ∃ graph, applyFilter source.built.tree source.edges filter = .ok graph) ∧
      ∀ styles filter options, ∃ view, assemble styles source filter options = .ok view := by
  have succeeds : (buildSource .custom ⟨.empty, Sample.customNodes⟩ ⟨true, false⟩).toOption.isSome := by
    decide +kernel
  obtain ⟨source, found⟩ := Option.isSome_iff_exists.mp succeeds
  have built := Outcome.toOption_eq_some_iff.mp found
  obtain ⟨filtered, assembled⟩ := built_source_filterable built
  exact ⟨source, built, filtered, assembled rfl⟩

end DependencyDiagram
