import DependencyDiagram.Proofs.Grouping.Failures
import DependencyDiagram.Proofs.Source.Labels
import DependencyDiagram.Proofs.Source.Leaves
import DependencyDiagram.Proofs.Source.MethodLeaves
import DependencyDiagram.Proofs.Tree.Subtree

/-!
# Building sources

The groups of a view are identified by assemblies, by types, by the tags down to a layer, or by the mint,
but they are merged by their labels alone. A tree stays sound all the same, for an identifier that is
given says by which labels its group is reached: an assembly's by its name, a type's by the type's path,
and a layer's by its tags, since no tag holds the slash that joins them. So building a view fails for
what its data says, or else because more groups are to be identified than the mint has numbers.

The last of these takes a name, or a number of groups, that no real data have. It is stated all the same,
since nothing in the data rules it out, and there is an input on which it happens.
-/

namespace DependencyDiagram

variable {specs : List LeafSpec}

/-- The groups of a name's layers are labelled with its tags, and each is identified by the tags down to
it. The induction is on the tags, with those above carried along, because every group is identified by
the whole run of tags from the outermost one. -/
theorem layerPath_spec {groupBy : String} {above tags : List String} {path : List Segment}
    (found : layerPath groupBy above tags = .ok path) :
    path.map Segment.label = tags ∧
      ∀ (index : Nat) (segment : Segment), path[index]? = some segment →
        ∃ grouping label : Name, segment.id = some (.layerGroup grouping label) ∧
          label.text = "/".intercalate (above ++ tags.take (index + 1)) := by
  induction tags generalizing above path with
  | nil =>
    obtain rfl : [] = path := Except.ok.inj found
    exact ⟨rfl, nofun⟩
  | cons tag rest inductionHypothesis =>
    obtain ⟨id, identified, further⟩ := Outcome.bind_eq_ok_iff.mp found
    obtain ⟨below, here, returned⟩ := Outcome.bind_eq_ok_iff.mp further
    obtain rfl := Except.ok.inj returned
    obtain ⟨labels, deeper⟩ := inductionHypothesis here
    refine ⟨congrArg (tag :: ·) labels, fun index segment listed => ?_⟩
    cases index with
    | zero =>
      obtain rfl := Option.some.inj listed
      obtain ⟨grouping, label, _, named, rfl⟩ := NodeId.ofLayer_eq_ok_iff.mp identified
      exact ⟨grouping, label, rfl, named⟩
    | succ index =>
      obtain ⟨grouping, label, own, named⟩ := deeper index segment listed
      refine ⟨grouping, label, own, named.trans ?_⟩
      rw [List.append_assoc, List.singleton_append, List.take_succ_cons]

/-- No tag of a layer holds the slash that joins tags. -/
theorem CustomNode.slash_not_mem_tag {node : CustomNode} {tag : String} (listed : tag ∈ node.layerTags) :
    '/' ∉ tag.toList := by
  rw [layerTags] at listed
  split at listed
  · cases listed
  · exact Text.separator_not_mem_piece (List.mem_filter.mp listed).1

/-- Leaves that are identified by their names have identifiers that never clash, where the names are
distinct and an identifier on a path is a layer's and says by which labels it is reached. Leaves are
identified by their names and groups by layers, so only two layers could clash; and the text of a layer
is cut into the labels that lead to it. -/
theorem identifiersApart_of_names {kind : NamedKind}
    (named : ∀ spec ∈ specs, NodeId.ofName kind spec.name = .ok spec.id)
    (distinct : (specs.map LeafSpec.name).Nodup)
    (layered : ∀ spec ∈ specs, ∀ (index : Nat) (segment : Segment) (own : NodeId),
      spec.path[index]? = some segment → segment.id = some own →
      ∃ grouping label : Name, own = .layerGroup grouping label ∧
        Text.pieces '/' label.text = (spec.path.map Segment.label).take (index + 1)) :
    IdentifiersApart specs where
  leaves := by
    refine distinct.of_map.map_on ?_
    intro left here right there same
    exact List.inj_on_of_nodup_map distinct here there
      (NodeId.ofName_injective (named left here) (same ▸ named right there))
  places := by
    intro first firstGiven second secondGiven index other segment further own here there given also
    obtain ⟨_, label, rfl, pieces⟩ := layered first firstGiven index segment own here given
    obtain ⟨_, _, same, piecesToo⟩ := layered second secondGiven other further _ there also
    obtain ⟨_, rfl⟩ := NodeId.layerGroup.inj same
    exact pieces.symm.trans piecesToo
  apart := by
    intro spec specGiven other otherGiven segment onPath own
    obtain ⟨index, here⟩ := List.mem_iff_getElem?.mp onPath
    obtain ⟨_, _, layer, _⟩ := layered other otherGiven index segment spec.id here own
    obtain ⟨_, _, identified⟩ := NodeId.ofName_eq_ok_iff.mp (named spec specGiven)
    cases identified.symm.trans layer
  leafOwn := by
    intro spec specGiven
    obtain ⟨_, _, identified⟩ := NodeId.ofName_eq_ok_iff.mp (named spec specGiven)
    rw [identified]
    rfl
  segmentOwn := by
    intro spec specGiven segment onPath own given
    obtain ⟨index, here⟩ := List.mem_iff_getElem?.mp onPath
    obtain ⟨_, _, rfl, _⟩ := layered spec specGiven index segment own here given
    rfl

namespace Source

variable {document : Reflection} {data : ViewData} {kind : ViewKind}

/-- The groups around an assembly have no identifier of their own. -/
theorem id_of_mem_assemblyPath {executables : List String} {name : String} {spec : LeafSpec}
    (made : leafFromName executables .assembly (.byAssembly document.assemblies.keys) name = .ok spec)
    {segment : Segment} (listed : segment ∈ spec.path) : segment.id = none := by
  rcases path_of_assembly made with ⟨_, path⟩ | ⟨_, _, path⟩ | ⟨_, _, path⟩
  · rw [path] at listed
    cases listed
  · rw [path] at listed
    exact Clustering.id_of_mem_prefixPath listed
  · rw [path, List.mem_singleton] at listed
    exact listed ▸ rfl

/-- A group around a custom leaf is identified by its layer, which says by which labels the group is
reached. No tag holds a slash, so the joined tags are cut back into those that they were joined from.
This is why layers that are reached by different labels never share an identifier. -/
theorem layer_of_customLeaf {nodes : List CustomNode} {known : List String} {node : CustomNode}
    {leaf : LeafSpec × List (NodeId × NodeId × List String)}
    (made : customLeaf known (.byLayer "layer" (layersOf nodes)) node = .ok leaf) {index : Nat}
    {segment : Segment} {own : NodeId} (here : leaf.1.path[index]? = some segment)
    (given : segment.id = some own) :
    ∃ grouping label : Name, own = .layerGroup grouping label ∧
      Text.pieces '/' label.text = (leaf.1.path.map Segment.label).take (index + 1) := by
  have chosen := (customLeaf_spec made).2.1
  rw [Clustering.path] at chosen
  split at chosen
  · rw [← Except.ok.inj chosen] at here
    cases here
  · rename_i tags layered
    obtain ⟨labels, identified⟩ := layerPath_spec chosen
    obtain ⟨grouping, label, identifier, named⟩ := identified index segment here
    refine ⟨grouping, label, Option.some.inj (given.symm.trans identifier), ?_⟩
    have inside : index < tags.length := by
      rw [← labels, List.length_map]
      exact (List.getElem?_eq_some_iff.mp here).1
    have listed := (List.mem_filter.mp (Table.mem_of_get?_ofList layered)).1
    obtain ⟨other, _, same⟩ := List.mem_map.mp listed
    obtain rfl := (Prod.mk.inj same).2
    rw [labels, named, List.nil_append]
    refine Text.pieces_joined (fun tag taken => ?_) ?_
    · exact CustomNode.slash_not_mem_tag (List.mem_of_mem_take taken)
    · rw [← List.length_pos_iff, List.length_take]
      omega

/-- The listed methods are some of a document's. -/
theorem listedMethods_sublist (document : Reflection) (kind : ViewKind) :
    (listedMethods document kind).Sublist (allMethods document) := by
  cases kind with
  | references | custom => exact List.nil_sublist _
  | methods => exact List.Sublist.refl _
  | apis => exact List.filter_sublist

/-- The leaves of a view have identifiers that never clash, where their names are distinct. Assemblies
and the nodes of a graph are identified by their names, and methods by their assemblies and tokens. -/
theorem identifiersApart_of_leaves (made : leaves kind data = .ok specs)
    (distinct : (specs.map LeafSpec.name).Nodup) : IdentifiersApart specs := by
  cases kind with
  | references =>
    have each := Outcome.mapM_eq_ok_iff.mp made
    have named (spec : LeafSpec) (given : spec ∈ specs) :
        NodeId.ofName .assembly spec.name = .ok spec.id := by
      obtain ⟨name, _, here⟩ := Outcome.exists_of_mem_right each given
      obtain ⟨_, _, named, _, rfl⟩ := exists_parts_of_leafFromName here
      exact named
    refine identifiersApart_of_names named distinct ?_
    intro spec given index segment own here identified
    obtain ⟨name, _, leaf⟩ := Outcome.exists_of_mem_right each given
    cases (id_of_mem_assemblyPath leaf (List.mem_of_getElem? here)).symm.trans identified
  | methods | apis =>
    exact identifiersApart_of_methodLeaves made
      ((nodup_allMethods data.reflection).sublist ((listedMethods_sublist _ _).map Prod.fst))
  | custom =>
    obtain ⟨leaves, each, rfl⟩ := Outcome.map_eq_ok_iff.mp made
    have related := Outcome.mapM_eq_ok_iff.mp each
    have named (spec : LeafSpec) (given : spec ∈ leaves.map Prod.fst) :
        NodeId.ofName .customLeaf spec.name = .ok spec.id := by
      obtain ⟨leaf, listed, rfl⟩ := List.mem_map.mp given
      obtain ⟨node, _, here⟩ := Outcome.exists_of_mem_right related listed
      rw [name_of_customLeaf here]
      exact (customLeaf_spec here).1
    refine identifiersApart_of_names named distinct ?_
    intro spec given index segment own onPath identified
    obtain ⟨leaf, listed, rfl⟩ := List.mem_map.mp given
    obtain ⟨node, _, here⟩ := Outcome.exists_of_mem_right related listed
    exact layer_of_customLeaf here onPath identified

/-- Where the leaves can be made and have distinct names, the view is built exactly when the mint has
enough numbers. Otherwise the structure of its tree would break. -/
theorem buildSource_of_distinct (made : leaves kind data = .ok specs)
    (distinct : (specs.map LeafSpec.name).Nodup) (options : HierarchyOptions) :
    ((∃ source, buildSource kind data options = .ok source) ↔ options.MintSuffices specs) ∧
      ∀ failure, buildSource kind data options = .error failure →
        failure.kind = .structuralInvariantViolation := by
  obtain ⟨edges, same⟩ := buildSource_of_leaves made
  have succeeds : _ ↔ options.MintSuffices specs := buildHierarchy_succeeds_iff distinct
    (identifiersApart_of_leaves made distinct).identified_planOf
  rw [same options, ← succeeds]
  constructor
  · constructor
    · rintro ⟨source, built⟩
      obtain ⟨⟨tree, further⟩, planted, _⟩ := Outcome.map_eq_ok_iff.mp built
      exact ⟨tree, further, planted⟩
    · rintro ⟨tree, further, planted⟩
      exact ⟨⟨tree, edges⟩, Outcome.map_eq_ok_iff.mpr ⟨(tree, further), planted, rfl⟩⟩
  · intro failure failed
    exact kind_of_buildHierarchy_error distinct (Outcome.map_eq_error_iff.mp failed)

end Source

/-- Building a view yields a sound tree, or it fails. It fails where some leaf cannot be made, because
the data lacks a key or holds a text or a number that identifies nothing; where a name is given twice;
and where more groups than there are positive numbers of thirty-two bits have no identifier of their own,
so that the tree would have more nodes than there are such numbers. There is no other outcome. The two
sides of the outcome exclude each other, and so do the three reasons for failing: the first is about
leaves, the second about their names, and the third arises only where both are in order. Where all leaves
are made the edges are made too, so the outcome is that of building the hierarchy. -/
theorem build_outcomes_exact (kind : ViewKind) (data : ViewData) (options : HierarchyOptions) :
    match buildSource kind data options with
    | .ok source =>
      (source.built.tree.nodes.map TreeNode.id).Nodup ∧ source.built.tree.checkStructure = .ok () ∧
        ∃ specs, Source.leaves kind data = .ok specs ∧ (specs.map LeafSpec.name).Nodup ∧
          options.MintSuffices specs
    | .error failure =>
      (failure.kind ∈ [FailureKind.invalidNodeId, .notFound] ∧
        ∃ refused, Source.leaves kind data = .error refused) ∨
      (failure.kind = .duplicateLeafName ∧
        ∃ specs, Source.leaves kind data = .ok specs ∧ ¬ (specs.map LeafSpec.name).Nodup) ∨
      (failure.kind = .structuralInvariantViolation ∧
        ∃ specs, Source.leaves kind data = .ok specs ∧ (specs.map LeafSpec.name).Nodup ∧
          ¬ options.MintSuffices specs ∧
          Text.maxWord32 < (planOf options.nested options.ungroupSingle specs).length) := by
  cases made : Source.leaves kind data with
  | error refused =>
    obtain ⟨failure, failed, listed⟩ := Source.buildSource_of_leaves_error made options
    rw [failed]
    exact Or.inl ⟨listed, refused, rfl⟩
  | ok specs =>
    by_cases distinct : (specs.map LeafSpec.name).Nodup
    · obtain ⟨succeeds, structural⟩ := Source.buildSource_of_distinct made distinct options
      cases outcome : buildSource kind data options with
      | ok source =>
        exact ⟨source.built.tree.distinct, Tree.checkStructure_succeeds source.built.tree, specs, rfl,
          distinct, succeeds.mp ⟨source, outcome⟩⟩
      | error failure =>
        have short : ¬ options.MintSuffices specs := by
          intro enough
          obtain ⟨source, built⟩ := succeeds.mpr enough
          cases outcome.symm.trans built
        exact Or.inr (Or.inr ⟨structural failure outcome, specs, rfl, distinct, short,
          maxWord32_lt_length_planOf short⟩)
    · obtain ⟨edges, same⟩ := Source.buildSource_of_leaves made
      obtain ⟨failure, failed, repeated⟩ : ∃ failure,
          buildHierarchy specs options Mint.fresh = .error failure ∧ failure.kind = .duplicateLeafName :=
        buildHierarchy_of_repeated distinct
      rw [same options, failed]
      exact Or.inr (Or.inl ⟨repeated, specs, rfl, distinct⟩)

namespace Sample

/-- A name with as many prefixes as the number says. Its prefixes are the names of the same form with
smaller numbers. -/
def deepName : Nat → String
  | 0 => "a"
  | depth + 1 => deepName depth ++ ".a"

/-- One examined assembly with such a name and nothing else. The leaf is inside one group for every
prefix. No two of these groups are at one level, so the clash is not one of labels. -/
def deepData (depth : Nat) : ViewData :=
  ⟨{ Reflection.empty with assemblies := .ofList [(deepName depth, ⟨[], []⟩)] }, []⟩

/-- A deep name does not end in its separator. -/
theorem getLast?_deepName (depth : Nat) : (deepName depth).toList.getLast? = some 'a' := by
  cases depth with
  | zero => decide
  | succ depth =>
    rw [deepName, String.toList_append, List.getLast?_append]
    rfl

/-- The deep names of less depth are prefixes of a deep name. -/
theorem extends_deepName {first second : Nat} (shorter : first < second) :
    Extends '.' (deepName first) (deepName second) := by
  induction shorter with
  | refl => exact ⟨['a'], by rw [deepName, String.toList_append]; rfl⟩
  | step _ inductionHypothesis =>
    obtain ⟨rest, whole⟩ := inductionHypothesis
    refine ⟨rest ++ ['.', 'a'], ?_⟩
    rw [deepName, String.toList_append, whole, List.append_assoc]
    rfl

/-- A deep name has as many prefixes as its depth says, or more. The shorter deep names are all
different, and each of them is a prefix in front of a dot. -/
theorem depth_le_prefixPath (depth : Nat) :
    depth ≤ (Clustering.prefixPath '.' (deepName depth)).length := by
  have apart : ((List.range depth).map deepName).Nodup := by
    refine List.pairwise_map.mpr (List.pairwise_lt_range.imp ?_)
    intro first second shorter same
    obtain ⟨rest, whole⟩ := extends_deepName shorter
    have longer := congrArg List.length whole
    rw [← same, List.length_append, List.length_cons] at longer
    omega
  have prefixes : (List.range depth).map deepName ⊆ qualifyingPrefixes '.' (deepName depth) := by
    intro leading listed
    obtain ⟨number, below, rfl⟩ := List.mem_map.mp listed
    have last := getLast?_deepName number
    refine mem_qualifyingPrefixes_iff.mpr ⟨?_, ?_, extends_deepName (List.mem_range.mp below)⟩
    · intro nothing
      rw [nothing] at last
      cases last
    · rw [last]
      decide
  calc depth = ((List.range depth).map deepName).length := by rw [List.length_map, List.length_range]
    _ ≤ (qualifyingPrefixes '.' (deepName depth)).length :=
        (List.subperm_of_subset apart prefixes).length_le
    _ = (Clustering.prefixPath '.' (deepName depth)).length := (List.length_map _).symm

/-- A deep name identifies an assembly. It consists of letters and dots only, so it is not empty and
holds neither of the separators. -/
theorem exists_ofName_deepName (depth : Nat) :
    ∃ id, NodeId.ofName .assembly (deepName depth) = .ok id := by
  have letters : ∀ character ∈ (deepName depth).toList, character = 'a' ∨ character = '.' := by
    have first : "a".toList = ['a'] := rfl
    have further : ".a".toList = ['.', 'a'] := rfl
    induction depth with
    | zero =>
      intro character listed
      rw [deepName, first] at listed
      exact Or.inl (List.mem_singleton.mp listed)
    | succ depth inductionHypothesis =>
      intro character listed
      rw [deepName, String.toList_append, further, List.mem_append] at listed
      rcases listed with before | behind
      · exact inductionHypothesis character before
      · exact (List.mem_pair.mp behind).symm
  have nonempty : deepName depth ≠ "" := by
    intro nothing
    have last := getLast?_deepName depth
    rw [nothing] at last
    cases last
  have unseparated : fieldSeparator ∉ (deepName depth).toList ∧
      endpointSeparator ∉ (deepName depth).toList := by
    constructor
    · intro listed
      rcases letters _ listed with impossible | impossible <;> cases impossible
    · intro listed
      rcases letters _ listed with impossible | impossible <;> cases impossible
  exact ⟨_, NodeId.ofName_eq_ok_iff.mpr ⟨⟨deepName depth, nonempty, unseparated⟩, rfl, rfl⟩⟩

/-- The only leaf of an assembly with a deep name stands below all prefixes of the name, and none of
their groups has an identifier of its own. -/
theorem leaves_deepData (depth : Nat) : ∃ spec, Source.leaves .references (deepData depth) = .ok [spec] ∧
    spec.path = Clustering.prefixPath '.' (deepName depth) := by
  obtain ⟨id, identified⟩ := exists_ofName_deepName depth
  have names : Source.assemblyNames (deepData depth).reflection = [deepName depth] := rfl
  have known : deepName depth ∈ (deepData depth).reflection.assemblies.keys := List.mem_singleton.mpr rfl
  have made : leafFromName [] .assembly (.byAssembly (deepData depth).reflection.assemblies.keys)
      (deepName depth) = .ok ⟨id, deepName depth, deepName depth,
        Clustering.prefixPath '.' (deepName depth)⟩ := by
    rw [leafFromName, if_neg List.not_mem_nil, Clustering.path, if_pos known, identified]
    rfl
  refine ⟨⟨id, deepName depth, deepName depth, Clustering.prefixPath '.' (deepName depth)⟩, ?_, rfl⟩
  rw [Source.leaves, names]
  exact Outcome.bind_eq_ok_iff.mpr ⟨_, made, rfl⟩

end Sample

/-- An assembly with a name so deep that the mint has no numbers left for its prefixes makes building
fail on the structure of the tree: the last groups are to be identified alike. -/
theorem deepData_breaks_tree : ∃ failure,
    buildSource .references (Sample.deepData Text.maxWord32) ⟨true, false⟩ = .error failure ∧
      failure.kind = .structuralInvariantViolation := by
  obtain ⟨spec, made, path⟩ := Sample.leaves_deepData Text.maxWord32
  have distinct : ([spec].map LeafSpec.name).Nodup := List.nodup_singleton _
  obtain ⟨succeeds, structural⟩ := Source.buildSource_of_distinct made distinct ⟨true, false⟩
  have short : ¬ HierarchyOptions.MintSuffices ⟨true, false⟩ [spec] := by
    have nameless : ∀ other ∈ [spec], ∀ segment ∈ other.path, segment.id = none := by
      intro other given segment listed
      rw [List.mem_singleton.mp given, path] at listed
      exact Clustering.id_of_mem_prefixPath listed
    have many : Text.maxWord32 ≤ (spec.way true).length := by
      rw [LeafSpec.way, cutPath, if_pos rfl, List.length_map, path]
      exact Sample.depth_le_prefixPath Text.maxWord32
    have single : HierarchyOptions.ungroupSingle ⟨true, false⟩ = false := rfl
    exact Nat.not_lt.mpr
      (Nat.le_trans many (length_way_le_countP_isMinted single List.mem_cons_self nameless))
  cases outcome : buildSource .references (Sample.deepData Text.maxWord32) ⟨true, false⟩ with
  | ok source => exact absurd (succeeds.mp ⟨source, outcome⟩) short
  | error failure => exact ⟨failure, rfl, structural failure outcome⟩

end DependencyDiagram
