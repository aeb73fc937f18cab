import DependencyDiagram.Proofs.Grouping.Promises
import DependencyDiagram.Proofs.Picture.Layout
import DependencyDiagram.Proofs.Tree.Growth

/-!
# Pictures that cannot fail

The ends of surfaced edges are in the tree, so drawing a filtered graph fails for nothing but a label
that its group's promise does not fit, and only the labels of drawn nodes are looked at. In a tree whose
groups promise nothing every label is drawn as it is, and the picture cannot fail.

Failing for a label is not the fault of the filter. It is a property of the tree, and for the trees of
views it is studied where labels are shortened.
-/

namespace DependencyDiagram

variable {tree : Tree} {edges : Edges} {filter : Filter} {graph : VisibleGraph}
  {options : ViewOptions} {styles : Styles}

/-- Without promises every label is drawn as it is. -/
theorem displayLabel_of_promiseless (promiseless : tree.Promiseless) (node : TreeNode) :
    displayLabel tree options node = .ok node.label := by
  rw [displayLabel]
  split
  · rfl
  · next parent group found =>
    obtain ⟨place, _, here⟩ := Option.bind_eq_some_iff.mp found
    obtain ⟨above, present, same⟩ := Option.map_eq_some_iff.mp here
    obtain ⟨rfl, rfl⟩ := Prod.mk.inj same
    have silent : above.shortens = false := promiseless above (List.mem_of_getElem? present)
    simp [silent]

/-- A node is drawn where its label is and where, in a frame, its children are. -/
theorem drawNode_succeeds {position : Nat} {node : TreeNode} {below : List (Except Failure Drawn)}
    (labelled : ∃ label, displayLabel graph.tree options node = .ok label)
    (drawn : graph.isExpanded position = true → ∀ outcome ∈ below, ∃ part, outcome = .ok part) :
    ∃ part, drawNode graph options styles position node below = .ok part := by
  obtain ⟨label, labelled⟩ := labelled
  rw [drawNode, labelled]
  simp only [bind, Except.bind]
  split
  · exact ⟨_, rfl⟩
  · split
    · next expanded =>
      obtain ⟨parts, joined⟩ : ∃ parts, below.mapM id = .ok parts :=
        Outcome.mapM_succeeds (drawn expanded)
      rw [joined]
      exact ⟨_, rfl⟩
    · exact ⟨_, rfl⟩

/-- A node is drawn with everything below it where the labels that are drawn can be. -/
theorem drawFrom_succeeds {position : Nat}
    (labelled : ∀ lower ∈ graph.shownFrom position, ∀ node, graph.tree.node? lower = some node →
      ∃ label, displayLabel graph.tree options node = .ok label) :
    ∃ drawn, drawFrom graph options styles position = .ok drawn := by
  induction position using graph.tree.downward_induction with
  | step position inductionHypothesis =>
    rw [VisibleGraph.drawFrom_eq]
    split
    · exact ⟨_, rfl⟩
    · next node present =>
      split
      · next visible =>
        rw [VisibleGraph.shownFrom_eq, if_pos visible] at labelled
        refine drawNode_succeeds (labelled position List.mem_cons_self node present) ?_
        intro expanded outcome listed
        rw [if_pos expanded] at labelled
        obtain ⟨child, among, rfl⟩ := List.mem_map.mp listed
        refine inductionHypothesis child among (fun lower below => labelled lower ?_)
        exact List.mem_cons_of_mem position (List.mem_flatMap.mpr ⟨child, among, below⟩)
      · exact ⟨_, rfl⟩

/-- Every surfaced edge of a filtered graph is drawn. -/
theorem drawEdge_succeeds (applied : applyFilter tree edges filter = .ok graph) {edge : Edge}
    (listed : edge ∈ graph.edges.values) : ∃ drawn, drawEdge graph options edge = .ok drawn := by
  obtain ⟨client, first⟩ :=
    VisibleGraph.exists_position_of_isEnd applied ⟨edge, listed, Or.inl rfl⟩
  obtain ⟨server, second⟩ :=
    VisibleGraph.exists_position_of_isEnd applied ⟨edge, listed, Or.inr rfl⟩
  rw [drawEdge, Tree.lookup_eq_ok_iff.mpr first, Tree.lookup_eq_ok_iff.mpr second]
  exact ⟨_, rfl⟩

/-- A filtered graph is projected where the labels of all drawn nodes can be drawn. -/
theorem project_succeeds_of_shown (applied : applyFilter tree edges filter = .ok graph)
    (labelled : ∀ position ∈ graph.shown, ∀ node, graph.tree.node? position = some node →
      ∃ label, displayLabel graph.tree options node = .ok label) :
    ∃ projection, project graph options styles = .ok projection := by
  obtain ⟨parts, nodes⟩ : ∃ parts,
      (graph.tree.children Tree.root).mapM (drawFrom graph options styles) = .ok parts :=
    Outcome.mapM_succeeds (fun child listed => drawFrom_succeeds (fun position below =>
      labelled position (List.mem_flatMap.mpr ⟨child, listed, below⟩)))
  obtain ⟨lines, edges⟩ : ∃ lines, graph.edges.values.mapM (drawEdge graph options) = .ok lines :=
    Outcome.mapM_succeeds (fun edge listed => drawEdge_succeeds applied listed)
  rw [project, drawNodes, nodes, edges]
  split
  · exact ⟨_, rfl⟩
  · exact ⟨_, rfl⟩

/-- A filtered graph is projected where every label can be drawn. -/
theorem project_succeeds (applied : applyFilter tree edges filter = .ok graph)
    (labelled : ∀ node, ∃ label, displayLabel graph.tree options node = .ok label) :
    ∃ projection, project graph options styles = .ok projection :=
  project_succeeds_of_shown applied (fun _ _ node _ => labelled node)

/-- What follows a leading part is what the text goes on with. -/
theorem Text.afterLeading?_eq_some_iff {leading text rest : String} :
    Text.afterLeading? leading text = some rest ↔ text = leading ++ rest := by
  rw [Text.afterLeading?, Option.map_eq_some_iff]
  constructor
  · rintro ⟨characters, found, rfl⟩
    rw [List.isPrefixOf?_eq_some_iff_append_eq] at found
    rw [← String.toList_inj, String.toList_append, String.toList_ofList, found]
  · rintro rfl
    refine ⟨rest.toList, ?_, String.ofList_toList⟩
    rw [List.isPrefixOf?_eq_some_iff_append_eq, String.toList_append]

/-- A label has a remainder behind its group's exactly when it goes on behind it. -/
theorem exists_remainder_iff {group label : String} :
    (∃ remainder, labelRemainder? group label = some remainder) ↔ Continues group label := by
  simp only [labelRemainder?, Option.filter_eq_some_iff, Option.bind_eq_some_iff,
    Text.afterLeading?_eq_some_iff]
  constructor
  · rintro ⟨remainder, ⟨_, rfl, rfl⟩, more⟩
    exact ⟨remainder, of_decide_eq_true more, by rw [String.append_assoc]⟩
  · rintro ⟨further, more, rfl⟩
    exact ⟨further, ⟨"." ++ further, String.append_assoc, rfl⟩, decide_eq_true more⟩

/-- A label cannot be drawn exactly when a view of reflection data is to shorten it and it does not go on
behind that of a group that promises so. A label is examined only where it is to be shortened, and a
missing remainder is what breaks the promise. -/
theorem displayLabel_eq_error_iff {node : TreeNode} {failure : Failure} :
    displayLabel tree options node = .error failure ↔
      options.shortLabels = true ∧ options.viewType.isPrimary = true ∧
        ∃ parent group, node.parent = some parent ∧ tree.node? parent = some group ∧
          parent ≠ Tree.root ∧ group.shortens = true ∧ ¬ Continues group.label node.label ∧
          failure = brokenPromise group node := by
  rw [displayLabel]
  constructor
  · intro failed
    split at failed
    · cases failed
    · next parent group found =>
      obtain ⟨place, below, here⟩ := Option.bind_eq_some_iff.mp found
      obtain ⟨above, present, same⟩ := Option.map_eq_some_iff.mp here
      obtain ⟨rfl, rfl⟩ := Prod.mk.inj same
      split at failed
      · next promised =>
        split at failed
        · cases failed
        · next nothing =>
          split at failed
          · next primary =>
            refine ⟨promised.1, primary, place, above, below, present, promised.2.1, promised.2.2, ?_,
              (Except.error.inj failed).symm⟩
            intro further
            obtain ⟨remainder, rest⟩ := exists_remainder_iff.mpr further
            cases nothing.symm.trans rest
          · cases failed
      · cases failed
  · rintro ⟨short, primary, parent, group, below, present, inner, promises, broken, rfl⟩
    have nothing : labelRemainder? group.label node.label = none :=
      Option.eq_none_iff_forall_ne_some.mpr
        (fun remainder found => broken (exists_remainder_iff.mp ⟨remainder, found⟩))
    rw [below, Option.bind_some, present, Option.map_some]
    simp [short, primary, inner, promises, nothing]

/-- Nodes fail to be drawn for nothing but the label of one that is drawn. The induction goes down the
drawing and follows the failure to the node where it arose. With its converse it makes the drawability of
an image a question about labels only. -/
theorem exists_label_of_drawFrom {position : Nat} {failure : Failure}
    (failed : drawFrom graph options styles position = .error failure) :
    ∃ lower ∈ graph.shownFrom position, ∃ node, graph.tree.node? lower = some node ∧
      displayLabel graph.tree options node = .error failure := by
  induction position using graph.tree.downward_induction with
  | step position inductionHypothesis =>
    rw [VisibleGraph.drawFrom_eq] at failed
    split at failed
    · cases failed
    · next node present =>
      split at failed
      · next visible =>
        rw [VisibleGraph.shownFrom_eq, if_pos visible]
        rcases Outcome.bind_eq_error_iff.mp failed with here | ⟨label, _, further⟩
        · exact ⟨position, List.mem_cons_self, node, present, here⟩
        · split at further
          · cases further
          · split at further
            · next expanded =>
              rcases Outcome.bind_eq_error_iff.mp further with below | ⟨_, _, impossible⟩
              · obtain ⟨outcome, listed, there⟩ := Outcome.exists_of_mapM_eq_error below
                obtain ⟨child, among, rfl⟩ := List.mem_map.mp listed
                obtain ⟨lower, within, refused⟩ := inductionHypothesis child among there
                rw [if_pos expanded]
                exact ⟨lower, List.mem_cons_of_mem position (List.mem_flatMap.mpr ⟨child, among, within⟩),
                  refused⟩
              · cases impossible
            · cases further
      · cases failed

/-- Projecting a filtered graph fails for nothing but the label of a node that is drawn. -/
theorem exists_label_of_project (applied : applyFilter tree edges filter = .ok graph)
    {failure : Failure} (failed : project graph options styles = .error failure) :
    ∃ position ∈ graph.shown, ∃ node, graph.tree.node? position = some node ∧
      displayLabel graph.tree options node = .error failure := by
  rw [project] at failed
  split at failed
  · cases failed
  · rcases Outcome.bind_eq_error_iff.mp failed with nodes | ⟨drawn, _, further⟩
    · rcases Outcome.bind_eq_error_iff.mp nodes with parts | ⟨_, _, impossible⟩
      · obtain ⟨child, listed, here⟩ := Outcome.exists_of_mapM_eq_error parts
        obtain ⟨position, below, refused⟩ := exists_label_of_drawFrom here
        exact ⟨position, List.mem_flatMap.mpr ⟨child, listed, below⟩, refused⟩
      · cases impossible
    · rcases Outcome.bind_eq_error_iff.mp further with edges | ⟨_, _, impossible⟩
      · obtain ⟨edge, listed, missing⟩ := Outcome.exists_of_mapM_eq_error edges
        obtain ⟨_, drawn⟩ := drawEdge_succeeds applied listed
        rw [missing] at drawn
        cases drawn
      · cases impossible

/-- Projecting a filtered graph fails for nothing but a broken promise. -/
theorem exists_promise_of_project (applied : applyFilter tree edges filter = .ok graph)
    {failure : Failure} (failed : project graph options styles = .error failure) :
    ∃ group node, failure = brokenPromise group node := by
  obtain ⟨_, _, node, _, refused⟩ := exists_label_of_project applied failed
  obtain ⟨_, _, _, group, _, _, _, _, _, broken⟩ := displayLabel_eq_error_iff.mp refused
  exact ⟨group, node, broken⟩

end DependencyDiagram
