import DependencyDiagram.Proofs.Grouping.Prefixes
import DependencyDiagram.Proofs.Picture.Success
import DependencyDiagram.Proofs.Source.Endpoints

/-!
# Groups for prefixes

Where leaves are placed by the prefixes of their names, the label of every group is a prefix of each name
below it. Paths are merged, cut after the outermost group, and left by leaves that would be alone in a
group, but a node never comes to stand in a group that is not on its way. So every label goes on behind
that of its group with the separator. A picture can shorten it if something more follows. For a group that
is always so, since no prefix ends in the separator. A name may, and it is then drawn in full or not at all.
-/

namespace DependencyDiagram

open DependencyDiagram.Tree

/-- The label of every node in a group but the root goes on behind that of the group with the separator.
The root has no label, so what is right below it is left out. -/
def Tree.LabelsExtend (separator : Char) (tree : Tree) : Prop :=
  ∀ position node parent group, tree.node? position = some node → node.parent = some parent →
    tree.node? parent = some group → parent ≠ root → Extends separator group.label node.label

/-- The node is a leaf in a group that is not the root, and its name is that of the group and a dot. All
that is before the last dot of such a name is a prefix of it, and nothing is left behind the dot that a
picture could show. -/
structure BuiltTree.EndsInDot (built : BuiltTree) (position : Nat) (group node : TreeNode) : Prop where
  present : built.tree.node? position = some node
  leaf : node.isLeaf = true
  named : built.leafs.get? node.label = some position
  within : ∃ parent, node.parent = some parent ∧ built.tree.node? parent = some group ∧ parent ≠ root
  dotted : node.label = group.label ++ "."

variable {names executables : List String} {kind : NamedKind} {options : HierarchyOptions}
  {clustering : Clustering} {separator : Char} {mint further : Mint} {built : BuiltTree}
  {spec : LeafSpec} {name : String} {position : Nat} {node : TreeNode}

/-- A leaf of a tree that is built from names is labelled with its name. -/
theorem leaf_of_buildTree
    (succeeded : buildTree names executables kind options clustering mint = .ok (built, further))
    (present : built.tree.node? position = some node) (leaf : node.isLeaf = true) :
    built.leafs.get? node.label = some position := by
  obtain ⟨specs, each, hierarchy⟩ := Outcome.bind_eq_ok_iff.mp succeeded
  obtain ⟨distinct, construction, realized, rfl⟩ := exists_realizes_of_buildHierarchy hierarchy
  obtain ⟨spec, given, found⟩ := realized.exists_spec_of_leaf distinct present leaf
  obtain ⟨other, parent, foundToo, here, _⟩ := realized.leaf_at_home distinct given
  obtain rfl := Option.some.inj (found.symm.trans foundToo)
  obtain rfl := Option.some.inj (present.symm.trans here)
  obtain ⟨name, _, made⟩ := Outcome.exists_of_mem_right (Outcome.mapM_eq_ok_iff.mp each) given
  obtain ⟨_, _, _, _, rfl⟩ := Source.exists_parts_of_leafFromName made
  exact found

/-- The path of a leaf that is placed by the prefixes of its name is empty or leads through them. -/
theorem path_of_prefixes
    (made : leafFromName executables kind (.byPrefix separator) name = .ok spec) :
    spec.label = name ∧ (spec.path = [] ∨ spec.path = Clustering.prefixPath separator name) := by
  obtain ⟨_, path, _, ⟨_, rfl⟩ | ⟨_, chosen⟩, rfl⟩ := Source.exists_parts_of_leafFromName made
  · exact ⟨rfl, Or.inl rfl⟩
  · exact ⟨rfl, Or.inr (Except.ok.inj chosen).symm⟩

/-- A group on such a path is for a prefix of the leaf's label and makes a promise. -/
theorem mem_path_of_prefixes
    (made : leafFromName executables kind (.byPrefix separator) name = .ok spec) {segment : Segment}
    (listed : segment ∈ spec.path) :
    segment.label ∈ qualifyingPrefixes separator spec.label ∧ segment.shortens = true := by
  obtain ⟨rfl, none | path⟩ := path_of_prefixes made
  · rw [none] at listed
    cases listed
  · exact Clustering.mem_prefixPath (path ▸ listed)

/-- A group but the root is for a prefix of a name and makes a promise. -/
theorem group_of_prefixes
    (succeeded : buildTree names executables kind options (.byPrefix separator) mint =
      .ok (built, further))
    (present : built.tree.node? position = some node) (below : position ≠ root)
    (isGroup : node.isLeaf = false) :
    (∃ name, node.label ∈ qualifyingPrefixes separator name) ∧ node.shortens = true := by
  obtain ⟨specs, each, hierarchy⟩ := Outcome.bind_eq_ok_iff.mp succeeded
  obtain ⟨spec, given, segment, onPath, label, segmentKind⟩ :=
    exists_segment_of_buildHierarchy hierarchy present below isGroup
  obtain ⟨name, _, made⟩ := Outcome.exists_of_mem_right (Outcome.mapM_eq_ok_iff.mp each) given
  obtain ⟨found, promises⟩ := mem_path_of_prefixes made onPath
  refine ⟨⟨spec.label, label ▸ found⟩, ?_⟩
  rw [TreeNode.shortens, segmentKind, promises]
  rfl

/-- Labels go on behind those of groups for prefixes. On every path all segments are prefixes that make
the promise, each going on behind those before it. What was merged or dissolved on the way leaves nodes
in groups of their own paths. -/
theorem labelsExtend_of_buildTree
    (succeeded : buildTree names executables kind options (.byPrefix separator) mint =
      .ok (built, further)) : built.tree.LabelsExtend separator := by
  obtain ⟨specs, each, hierarchy⟩ := Outcome.bind_eq_ok_iff.mp succeeded
  have made (spec : LeafSpec) (given : spec ∈ specs) :=
    Outcome.exists_of_mem_right (Outcome.mapM_eq_ok_iff.mp each) given
  have agree : PathsAgree specs := by
    intro first firstGiven second secondGiven index segment other here there _
    obtain ⟨_, _, firstMade⟩ := made first firstGiven
    obtain ⟨_, _, secondMade⟩ := made second secondGiven
    rw [(mem_path_of_prefixes firstMade (List.mem_of_getElem? here)).2,
      (mem_path_of_prefixes secondMade (List.mem_of_getElem? there)).2]
  have onward (spec : LeafSpec) (given : spec ∈ specs) : spec.path.Pairwise
      (fun upper lower => upper.shortens = true → Extends separator upper.label lower.label) := by
    obtain ⟨name, _, here⟩ := made spec given
    obtain ⟨_, none | path⟩ := path_of_prefixes here
    · rw [none]
      exact List.Pairwise.nil
    · rw [path]
      exact Clustering.prefixPath_onward (qualifyingPrefixes_onward separator name)
  have onPath (spec : LeafSpec) (given : spec ∈ specs) (segment : Segment)
      (listed : segment ∈ spec.path) (_ : segment.shortens = true) :
      Extends separator segment.label spec.label := by
    obtain ⟨name, _, here⟩ := made spec given
    exact extends_of_mem (mem_path_of_prefixes here listed).1
  intro position node parent group present below above inner
  have named : built.tree.parent? position = some parent := (parent?_of_node? present).trans below
  obtain ⟨upper, aboveToo, isGroup⟩ := group_of_parent named
  obtain rfl := Option.some.inj (above.symm.trans aboveToo)
  exact relates_of_buildHierarchy hierarchy agree onward onPath position node parent group present below
    above inner (group_of_prefixes succeeded above inner isGroup).2

/-- With dots, a label that does not go on with something more behind the dot is that of a leaf. With
dots, every label inside a group extends the group's label by a dot at least. One that is just the label
with its dot cannot be a group's, since the prefix of a group never ends in the dot. -/
theorem endsInDot_iff
    (succeeded : buildTree names executables kind options (.byPrefix '.') mint = .ok (built, further))
    (present : built.tree.node? position = some node) {group : TreeNode} :
    built.EndsInDot position group node ↔ ∃ parent, node.parent = some parent ∧
      built.tree.node? parent = some group ∧ parent ≠ root ∧ ¬ Continues group.label node.label := by
  constructor
  · intro ends
    obtain ⟨parent, below, above, inner⟩ := ends.within
    exact ⟨parent, below, above, inner, fun continues => (continues_iff.mp continues).2 ends.dotted⟩
  · rintro ⟨parent, below, above, inner, broken⟩
    have extends_ := labelsExtend_of_buildTree succeeded position node parent group present below above inner
    have dotted : node.label = group.label ++ "." := by
      by_contra more
      exact broken (continues_iff.mpr ⟨extends_, more⟩)
    have leaf : node.isLeaf = true := by
      by_contra notLeaf
      have lower : position ≠ root := by
        rintro rfl
        cases (parent?_root built.tree).symm.trans ((parent?_of_node? present).trans below)
      obtain ⟨⟨name, found⟩, _⟩ :=
        group_of_prefixes succeeded present lower (Bool.eq_false_of_not_eq_true notLeaf)
      exact ne_append_of_prefix found group.label dotted
    exact ⟨present, leaf, leaf_of_buildTree succeeded present leaf, ⟨parent, below, above, inner⟩, dotted⟩

/-- Where leaves are placed by the prefixes of their names, every label goes on behind that of its group
with the separator. With dots, a picture cannot shorten a label exactly when it is the name of a leaf
that reads like its group with a dot behind it, and projecting a graph fails for nothing else. Names may
be anything, with any separators at their ends or next to one another, and executables are placed below
the root without a group. Where projecting fails, the leaf that is to blame is among the positions that
would have been drawn. -/
theorem prefix_groups_extended {names executables : List String} {kind : NamedKind}
    {options : HierarchyOptions} {separator : Char} {mint further : Mint} {built : BuiltTree}
    (succeeded : buildTree names executables kind options (.byPrefix separator) mint =
      .ok (built, further)) :
    built.tree.LabelsExtend separator ∧
      (separator = '.' → ∀ view : ViewOptions,
        (∀ position node failure, built.tree.node? position = some node →
          (displayLabel built.tree view node = .error failure ↔
            view.shortLabels = true ∧ view.viewType.isPrimary = true ∧
              ∃ group, built.EndsInDot position group node ∧ failure = brokenPromise group node)) ∧
        ∀ edges filter graph styles failure, applyFilter built.tree edges filter = .ok graph →
          project graph view styles = .error failure →
          ∃ position ∈ graph.shown, ∃ group node,
            built.EndsInDot position group node ∧ failure = brokenPromise group node) := by
  refine ⟨labelsExtend_of_buildTree succeeded, ?_⟩
  rintro rfl view
  have exact (position node failure) (present : built.tree.node? position = some node) :
      displayLabel built.tree view node = .error failure ↔
        view.shortLabels = true ∧ view.viewType.isPrimary = true ∧
          ∃ group, built.EndsInDot position group node ∧ failure = brokenPromise group node := by
    rw [displayLabel_eq_error_iff]
    refine and_congr_right fun _ => and_congr_right fun _ => ⟨?_, ?_⟩
    · rintro ⟨parent, group, below, above, inner, _, broken, named⟩
      exact ⟨group, (endsInDot_iff succeeded present).mpr ⟨parent, below, above, inner, broken⟩, named⟩
    · rintro ⟨group, ends, named⟩
      obtain ⟨parent, below, above, inner, broken⟩ := (endsInDot_iff succeeded present).mp ends
      obtain ⟨upper, aboveToo, isGroup⟩ :=
        group_of_parent ((parent?_of_node? present).trans below)
      obtain rfl := Option.some.inj (above.symm.trans aboveToo)
      exact ⟨parent, group, below, above, inner, (group_of_prefixes succeeded above inner isGroup).2,
        broken, named⟩
  -- Projecting fails on the label of a drawn node, and which labels fail is known by now.
  refine ⟨exact, fun edges filter graph styles failure applied failed => ?_⟩
  obtain ⟨position, drawn, node, present, refused⟩ := exists_label_of_project applied failed
  rw [VisibleGraph.tree_of_applyFilter applied] at present refused
  obtain ⟨_, _, group, ends, named⟩ := (exact position node failure present).mp refused
  exact ⟨position, drawn, group, node, ends, named⟩

namespace Sample

/-- Names with common prefixes, one of which ends in a dot, and the name of an executable. -/
def dottedNames : List String := ["Core.", "Core.Data", "Core.Data.Sql", "Core.Web", "Core.App"]

end Sample

/-- The labels of the sample's tree go on behind those of their groups, and the one that ends in a dot
cannot be shortened. -/
theorem dottedNames_extended :
    ∃ built further, buildTree Sample.dottedNames ["Core.App"] .assembly ⟨true, false⟩ (.byPrefix '.')
        Mint.fresh = .ok (built, further) ∧
      built.tree.LabelsExtend '.' ∧
      ∃ group node, built.EndsInDot 4 group node ∧
        displayLabel built.tree (.standard .references) node = .error (brokenPromise group node) := by
  have computed : (buildTree Sample.dottedNames ["Core.App"] .assembly ⟨true, false⟩ (.byPrefix '.')
      Mint.fresh).toOption.bind (fun outcome => (outcome.1.tree.node? 4).map
        (fun node => (displayLabel outcome.1.tree (.standard .references) node).isOk)) = some false := by
    decide
  obtain ⟨⟨built, further⟩, found, inside⟩ := Option.bind_eq_some_iff.mp computed
  obtain ⟨node, present, failed⟩ := Option.map_eq_some_iff.mp inside
  have succeeded := Outcome.toOption_eq_some_iff.mp found
  obtain ⟨extended, shortened⟩ := prefix_groups_extended succeeded
  cases refused : displayLabel built.tree (.standard .references) node with
  | ok label =>
    rw [refused] at failed
    cases failed
  | error failure =>
    obtain ⟨_, _, group, ends, rfl⟩ := ((shortened rfl _).1 4 node failure present).mp refused
    exact ⟨built, further, succeeded, extended, group, node, ends, refused⟩

end DependencyDiagram
