import DependencyDiagram.Source
import DependencyDiagram.Proofs.Edges.Merging
import DependencyDiagram.Proofs.Grouping.Building

/-!
# Endpoints of sources

Whatever the view, the edges of a source end on leaves of the tree that is built beside them. In the
references view every name that a reference mentions becomes a leaf. In the views of methods a call is
kept only when both of its methods are loaded, and the apis view lists the methods at the ends of the
calls it keeps. In the custom view a dependency must be one of the nodes.

This is what makes a source fit for any filter. An edge that ended on a group would be refused later,
when the filter is applied, and a caller could do nothing about it.
-/

namespace DependencyDiagram

/-- Every edge leads from a leaf of the tree to a leaf of the tree. Identifiers are looked up in the
tree, so it also says that they are those of nodes that are there. -/
def GraphSource.EndsOnLeaves (source : GraphSource) : Prop :=
  ∀ edge ∈ source.edges.values,
    source.built.tree.HasLeaf edge.client ∧ source.built.tree.HasLeaf edge.server

namespace Source

variable {options : HierarchyOptions} {source : GraphSource} {document : Reflection}

/-- What an edge towards a leaf contributes. Contributions for the same two leaves are merged later, and
their labels are joined in order. -/
def contributionOf (ends : NodeId × NodeId × List String) : Contribution :=
  ⟨ends.1, ends.2.1, ends.2.2, true⟩

/-- Edges towards leaves are merged per pair when gathered. -/
theorem values_gatherLeafEdges (given : List (NodeId × NodeId × List String)) :
    (given.foldl gatherLeafEdge Edges.empty).values = Contribution.merged (given.map contributionOf) := by
  rw [← Edges.values_gatherAll, Edges.gatherAll, List.foldl_map]
  rfl

/-- The ends of a gathered edge were given. -/
theorem exists_given_of_mem {given : List (NodeId × NodeId × List String)} {edge : Edge}
    (listed : edge ∈ (given.foldl gatherLeafEdge Edges.empty).values) :
    ∃ ends ∈ given, ends.1 = edge.client ∧ ends.2.1 = edge.server := by
  rw [values_gatherLeafEdges, Contribution.merged] at listed
  obtain ⟨pair, among, rfl⟩ := List.mem_map.mp listed
  obtain ⟨contribution, present, rfl⟩ := List.mem_map.mp (List.mem_eraseDups.mp among)
  obtain ⟨ends, member, rfl⟩ := List.mem_map.mp present
  exact ⟨ends, member, rfl, rfl⟩

/-- There is an edge for every given pair of ends. -/
theorem exists_edge_of_given {given : List (NodeId × NodeId × List String)}
    {ends : NodeId × NodeId × List String} (member : ends ∈ given) :
    ∃ edge ∈ (given.foldl gatherLeafEdge Edges.empty).values,
      edge.client = ends.1 ∧ edge.server = ends.2.1 := by
  refine ⟨Contribution.edgeOf (given.map contributionOf) (ends.1, ends.2.1), ?_, rfl, rfl⟩
  rw [values_gatherLeafEdges, Contribution.merged]
  refine List.mem_map_of_mem (List.mem_eraseDups.mpr ?_)
  exact List.mem_map.mpr ⟨contributionOf ends, List.mem_map_of_mem member, rfl⟩

/-- Edges given between leaves of a tree end on its leaves when gathered. -/
theorem endsOnLeaves_of_given {built : BuiltTree} {given : List (NodeId × NodeId × List String)}
    (leaves : ∀ ends ∈ given, built.tree.HasLeaf ends.1 ∧ built.tree.HasLeaf ends.2.1) :
    GraphSource.EndsOnLeaves ⟨built, given.foldl gatherLeafEdge Edges.empty⟩ := by
  intro edge listed
  obtain ⟨ends, member, client, server⟩ := exists_given_of_mem listed
  exact client ▸ server ▸ leaves ends member

/-- What a leaf made from a name alone is: it is named and labelled with the name, and its path is
empty for an executable and otherwise the one that the policy chooses. -/
theorem exists_parts_of_leafFromName {executables : List String} {kind : NamedKind}
    {clustering : Clustering} {name : String} {spec : LeafSpec}
    (made : leafFromName executables kind clustering name = .ok spec) :
    ∃ id path, NodeId.ofName kind name = .ok id ∧
      (name ∈ executables ∧ path = [] ∨ name ∉ executables ∧ clustering.path name = .ok path) ∧
      spec = ⟨id, name, name, path⟩ := by
  rw [leafFromName] at made
  split at made
  · rename_i own
    obtain ⟨path, chosen, further⟩ := Outcome.bind_eq_ok_iff.mp made
    obtain ⟨id, named, returned⟩ := Outcome.bind_eq_ok_iff.mp further
    exact ⟨id, path, named, Or.inl ⟨own, (Except.ok.inj chosen).symm⟩, (Except.ok.inj returned).symm⟩
  · rename_i other
    obtain ⟨path, chosen, further⟩ := Outcome.bind_eq_ok_iff.mp made
    obtain ⟨id, named, returned⟩ := Outcome.bind_eq_ok_iff.mp further
    exact ⟨id, path, named, Or.inr ⟨other, chosen⟩, (Except.ok.inj returned).symm⟩

/-- A leaf made from a name is identified by the name. -/
theorem id_of_leafFromName {executables : List String} {kind : NamedKind} {clustering : Clustering}
    {name : String} {spec : LeafSpec}
    (made : leafFromName executables kind clustering name = .ok spec) :
    NodeId.ofName kind name = .ok spec.id := by
  obtain ⟨_, _, named, _, rfl⟩ := exists_parts_of_leafFromName made
  exact named

/-- A tree built from names has a leaf for each of them. -/
theorem hasLeaf_of_buildTree {names executables : List String} {kind : NamedKind}
    {clustering : Clustering} {mint further : Mint} {built : BuiltTree}
    (succeeded : buildTree names executables kind options clustering mint = .ok (built, further))
    {name : String} (listed : name ∈ names) {id : NodeId}
    (named : NodeId.ofName kind name = .ok id) : built.tree.HasLeaf id := by
  obtain ⟨specs, each, hierarchy⟩ := Outcome.bind_eq_ok_iff.mp succeeded
  obtain ⟨spec, member, made⟩ := Outcome.exists_of_mem_left (Outcome.mapM_eq_ok_iff.mp each) listed
  have same : spec.id = id := Except.ok.inj ((id_of_leafFromName made).symm.trans named)
  exact same ▸ hasLeaf_of_buildHierarchy hierarchy member

/-- Both names of a reference are among the names of assemblies. -/
theorem mem_assemblyNames {pair : String × String} (listed : pair ∈ referencePairs document) :
    pair.1 ∈ assemblyNames document ∧ pair.2 ∈ assemblyNames document := by
  obtain ⟨entry, member, referenced⟩ := List.mem_flatMap.mp listed
  obtain ⟨target, mentioned, rfl⟩ := List.mem_map.mp referenced
  simp only [assemblyNames, mem_ascendingMembers, List.mem_append, List.mem_flatMap, List.mem_cons]
  exact ⟨Or.inr ⟨entry, member, Or.inl rfl⟩, Or.inr ⟨entry, member, Or.inr mentioned⟩⟩

/-- References end on leaves. -/
theorem endsOnLeaves_references (built : references document options = .ok source) :
    source.EndsOnLeaves := by
  obtain ⟨⟨tree, further⟩, planted, next⟩ := Outcome.bind_eq_ok_iff.mp built
  obtain ⟨given, each, returned⟩ := Outcome.bind_eq_ok_iff.mp next
  obtain rfl := Except.ok.inj returned
  apply endsOnLeaves_of_given
  intro ends listed
  obtain ⟨pair, member, made⟩ := Outcome.exists_of_mem_right (Outcome.mapM_eq_ok_iff.mp each) listed
  obtain ⟨client, clientNamed, rest⟩ := Outcome.bind_eq_ok_iff.mp made
  obtain ⟨server, serverNamed, last⟩ := Outcome.bind_eq_ok_iff.mp rest
  obtain rfl := Except.ok.inj last
  obtain ⟨first, second⟩ := mem_assemblyNames member
  exact ⟨hasLeaf_of_buildTree planted first clientNamed,
    hasLeaf_of_buildTree planted second serverNamed⟩

/-- A method that is found is among all methods. -/
theorem mem_allMethods_of_method? {method : MethodRef} {info : MethodInfo}
    (found : document.method? method.assembly method.token = some info) :
    (method, info) ∈ allMethods document := by
  obtain ⟨methods, ofAssembly, ofToken⟩ := Option.bind_eq_some_iff.mp found
  refine List.mem_flatMap.mpr ⟨(method.assembly, methods), Ascending.mem_of_get? ofAssembly, ?_⟩
  exact List.mem_map.mpr ⟨(method.token, info), Ascending.mem_of_get? ofToken, rfl⟩

/-- Both methods of a loaded call are among all methods. -/
theorem exists_methods_of_loadedCall {call : Call} (loaded : call ∈ loadedCalls document) :
    (∃ info, (call.caller, info) ∈ allMethods document) ∧
      ∃ info, (call.callee, info) ∈ allMethods document := by
  obtain ⟨⟨caller, info⟩, listed, calls⟩ := List.mem_flatMap.mp loaded
  obtain ⟨callee, _, made⟩ := List.mem_filterMap.mp calls
  obtain ⟨called, found, rfl⟩ := Option.map_eq_some_iff.mp made
  exact ⟨⟨info, listed⟩, ⟨called, mem_allMethods_of_method? found⟩⟩

/-- The calls that a view of methods shows. They are in the order of the document, once for every time a
call is listed. -/
def shownCalls (document : Reflection) : ViewKind → List Call
  | .methods => loadedCalls document
  | .apis => (loadedCalls document).filter Call.crosses
  | .references | .custom => []

/-- The methods that a view of methods lists. In the apis view a method may be listed because it is
called, because it calls, or for both reasons; it is listed once. -/
def listedMethods (document : Reflection) : ViewKind → List (MethodRef × MethodInfo)
  | .methods => allMethods document
  | .apis => (allMethods document).filter (fun entry =>
      ((shownCalls document .apis).flatMap (fun call => [call.caller, call.callee])).contains entry.1)
  | .references | .custom => []

/-- Both methods of a call that a view shows are listed. -/
theorem ends_listed (kind : ViewKind) {call : Call} (shown : call ∈ shownCalls document kind) :
    (∃ info, (call.caller, info) ∈ listedMethods document kind) ∧
      ∃ info, (call.callee, info) ∈ listedMethods document kind := by
  cases kind with
  | references => cases shown
  | custom => cases shown
  | methods => exact exists_methods_of_loadedCall shown
  | apis =>
    obtain ⟨⟨callerInfo, caller⟩, ⟨calleeInfo, callee⟩⟩ :=
      exists_methods_of_loadedCall (List.mem_filter.mp shown).1
    refine ⟨⟨callerInfo, List.mem_filter.mpr ⟨caller, ?_⟩⟩, ⟨calleeInfo, List.mem_filter.mpr ⟨callee, ?_⟩⟩⟩
    · rw [List.contains_eq_mem, decide_eq_true_eq, List.mem_flatMap]
      exact ⟨call, shown, List.mem_cons_self⟩
    · rw [List.contains_eq_mem, decide_eq_true_eq, List.mem_flatMap]
      exact ⟨call, shown, List.mem_cons_of_mem _ List.mem_cons_self⟩

/-- What the leaf of a method is made of: the identifier of the method, its label, and its path through
its assembly, its namespaces and its type. -/
theorem methodLeaf_spec {method : MethodRef} {info : MethodInfo} {spec : LeafSpec}
    (made : methodLeaf document method info = .ok spec) :
    ∃ declaring assemblyId typeId,
      (document.assemblies.get? method.assembly).bind
        (fun assembly => assembly.typeWithToken? info.declaringType) = some declaring ∧
      NodeId.ofName .assembly method.assembly = .ok assemblyId ∧
      NodeId.ofMember .typeDefinition method.assembly declaring.token.toNat = .ok typeId ∧
      methodId method = .ok spec.id ∧
      spec.label = declaring.fullName ++ "." ++ info.name ∧
      spec.path = (Segment.bucket method.assembly).withId assemblyId ::
        namespacePath declaring ++ [(Segment.prefixed declaring.fullName).withId typeId] := by
  rw [methodLeaf] at made
  split at made
  · cases made
  · rename_i declaring found
    obtain ⟨assemblyId, assemblyNamed, next⟩ := Outcome.bind_eq_ok_iff.mp made
    obtain ⟨typeId, typeNamed, further⟩ := Outcome.bind_eq_ok_iff.mp next
    obtain ⟨id, identified, returned⟩ := Outcome.bind_eq_ok_iff.mp further
    obtain rfl := Except.ok.inj returned
    exact ⟨declaring, assemblyId, typeId, found, assemblyNamed, typeNamed, identified, rfl, rfl⟩

/-- The leaf of a method is identified as the method. -/
theorem id_of_methodLeaf {method : MethodRef} {info : MethodInfo} {spec : LeafSpec}
    (made : methodLeaf document method info = .ok spec) : methodId method = .ok spec.id := by
  obtain ⟨_, _, _, _, _, _, identified, _⟩ := methodLeaf_spec made
  exact identified

/-- A view of methods has the edges of its calls and is built from the leaves of its methods. -/
theorem ofCalls_eq_ok_iff {calls : List Call} {listed : List (MethodRef × MethodInfo)} :
    ofCalls document calls listed options = .ok source ↔
      ∃ given specs built further, calls.mapM callEdge = .ok given ∧
        listed.mapM (fun (method, info) => methodLeaf document method info) = .ok specs ∧
        buildHierarchy specs options Mint.fresh = .ok (built, further) ∧
        source = ⟨built, given.foldl gatherLeafEdge Edges.empty⟩ := by
  constructor
  · intro built
    obtain ⟨given, each, next⟩ := Outcome.bind_eq_ok_iff.mp built
    obtain ⟨specs, made, further⟩ := Outcome.bind_eq_ok_iff.mp next
    obtain ⟨⟨tree, mint⟩, planted, returned⟩ := Outcome.bind_eq_ok_iff.mp further
    exact ⟨given, specs, tree, mint, each, made, planted, (Except.ok.inj returned).symm⟩
  · rintro ⟨given, specs, built, further, each, made, planted, rfl⟩
    refine Outcome.bind_eq_ok_iff.mpr ⟨given, each, Outcome.bind_eq_ok_iff.mpr ⟨specs, made, ?_⟩⟩
    exact Outcome.bind_eq_ok_iff.mpr ⟨(built, further), planted, rfl⟩

/-- The edge of a call leads from the caller to the method that is called and is labelled with the
name of this. -/
theorem callEdge_eq_ok_iff {call : Call} {ends : NodeId × NodeId × List String} :
    callEdge call = .ok ends ↔
      methodId call.caller = .ok ends.1 ∧ methodId call.callee = .ok ends.2.1 ∧
        ends.2.2 = [call.label] := by
  obtain ⟨client, server, labels⟩ := ends
  constructor
  · intro made
    obtain ⟨first, here, next⟩ := Outcome.bind_eq_ok_iff.mp made
    obtain ⟨second, there, returned⟩ := Outcome.bind_eq_ok_iff.mp next
    obtain ⟨rfl, rfl, rfl⟩ : first = client ∧ second = server ∧ [call.label] = labels := by
      simpa using Except.ok.inj returned
    exact ⟨here, there, rfl⟩
  · rintro ⟨here, there, rfl⟩
    exact Outcome.bind_eq_ok_iff.mpr ⟨client, here, Outcome.bind_eq_ok_iff.mpr ⟨server, there, rfl⟩⟩

/-- Calls end on leaves when the methods at their ends are listed. -/
theorem endsOnLeaves_ofCalls {calls : List Call} {listed : List (MethodRef × MethodInfo)}
    (covered : ∀ call ∈ calls,
      (∃ info, (call.caller, info) ∈ listed) ∧ ∃ info, (call.callee, info) ∈ listed)
    (built : ofCalls document calls listed options = .ok source) : source.EndsOnLeaves := by
  obtain ⟨given, specs, tree, mint, each, made, planted, rfl⟩ := ofCalls_eq_ok_iff.mp built
  have leafOf {method : MethodRef} {info : MethodInfo} {id : NodeId}
      (member : (method, info) ∈ listed) (identified : methodId method = .ok id) :
      tree.tree.HasLeaf id := by
    obtain ⟨spec, present, leaf⟩ :=
      Outcome.exists_of_mem_left (Outcome.mapM_eq_ok_iff.mp made) member
    have same : spec.id = id := Except.ok.inj ((id_of_methodLeaf leaf).symm.trans identified)
    exact same ▸ hasLeaf_of_buildHierarchy planted present
  apply endsOnLeaves_of_given
  intro ends present
  obtain ⟨call, member, edge⟩ := Outcome.exists_of_mem_right (Outcome.mapM_eq_ok_iff.mp each) present
  obtain ⟨ofCaller, ofCallee, _⟩ := callEdge_eq_ok_iff.mp edge
  obtain ⟨⟨callerInfo, caller⟩, ⟨calleeInfo, callee⟩⟩ := covered call member
  exact ⟨leafOf caller ofCaller, leafOf callee ofCallee⟩

/-- The calls of the methods view end on leaves. -/
theorem endsOnLeaves_methods (built : methods document options = .ok source) :
    source.EndsOnLeaves :=
  endsOnLeaves_ofCalls (fun _ shown => ends_listed .methods shown) built

/-- The calls of the apis view end on leaves, although that view drops leaves: it keeps the
methods at the ends of its calls. -/
theorem endsOnLeaves_apis (built : apis document options = .ok source) : source.EndsOnLeaves :=
  endsOnLeaves_ofCalls (fun _ shown => ends_listed .apis shown) built

/-- A custom leaf is identified by its node's name, its edges lead from it to known nodes, and
its path is the one that the policy chooses. -/
theorem customLeaf_spec {known : List String} {clustering : Clustering} {node : CustomNode}
    {leaf : LeafSpec × List (NodeId × NodeId × List String)}
    (made : customLeaf known clustering node = .ok leaf) :
    NodeId.ofName .customLeaf node.id = .ok leaf.1.id ∧
      clustering.path node.id = .ok leaf.1.path ∧
      ∀ ends ∈ leaf.2, ends.1 = leaf.1.id ∧
        ∃ dependency ∈ known, NodeId.ofName .customLeaf dependency = .ok ends.2.1 := by
  obtain ⟨id, named, next⟩ := Outcome.bind_eq_ok_iff.mp made
  obtain ⟨servers, each, further⟩ := Outcome.bind_eq_ok_iff.mp next
  obtain ⟨path, chosen, returned⟩ := Outcome.bind_eq_ok_iff.mp further
  obtain rfl := Except.ok.inj returned
  refine ⟨named, chosen, ?_⟩
  intro ends listed
  obtain ⟨server, present, rfl⟩ := List.mem_map.mp listed
  obtain ⟨dependency, _, identified⟩ :=
    Outcome.exists_of_mem_right (Outcome.mapM_eq_ok_iff.mp each) present
  rw [dependencyId] at identified
  split at identified
  · next isKnown => exact ⟨rfl, dependency, isKnown, identified⟩
  · cases identified

/-- A custom leaf has its node's name. -/
theorem name_of_customLeaf {known : List String} {clustering : Clustering} {node : CustomNode}
    {leaf : LeafSpec × List (NodeId × NodeId × List String)}
    (made : customLeaf known clustering node = .ok leaf) : leaf.1.name = node.id := by
  obtain ⟨_, _, next⟩ := Outcome.bind_eq_ok_iff.mp made
  obtain ⟨_, _, further⟩ := Outcome.bind_eq_ok_iff.mp next
  obtain ⟨_, _, returned⟩ := Outcome.bind_eq_ok_iff.mp further
  obtain rfl := Except.ok.inj returned
  rfl

/-- Dependencies of the custom view end on leaves. -/
theorem endsOnLeaves_custom {nodes : List CustomNode} (built : custom nodes options = .ok source) :
    source.EndsOnLeaves := by
  obtain ⟨leaves, each, next⟩ := Outcome.bind_eq_ok_iff.mp built
  obtain ⟨⟨tree, mint⟩, planted, returned⟩ := Outcome.bind_eq_ok_iff.mp next
  obtain rfl := Except.ok.inj returned
  have made := Outcome.mapM_eq_ok_iff.mp each
  have planted_leaf {leaf : LeafSpec × List (NodeId × NodeId × List String)}
      (member : leaf ∈ leaves) : tree.tree.HasLeaf leaf.1.id :=
    hasLeaf_of_buildHierarchy planted (List.mem_map_of_mem member)
  apply endsOnLeaves_of_given
  intro ends listed
  obtain ⟨leaf, member, own⟩ := List.mem_flatMap.mp listed
  obtain ⟨node, _, here⟩ := Outcome.exists_of_mem_right made member
  obtain ⟨client, dependency, known, identified⟩ := (customLeaf_spec here).2.2 ends own
  obtain ⟨other, present, rfl⟩ := List.mem_map.mp known
  obtain ⟨otherLeaf, otherMember, there⟩ := Outcome.exists_of_mem_left made present
  have server : otherLeaf.1.id = ends.2.1 :=
    Except.ok.inj ((customLeaf_spec there).1.symm.trans identified)
  exact ⟨client ▸ planted_leaf member, server ▸ planted_leaf otherMember⟩

/-- The groups of the custom view promise nothing about labels. -/
theorem promiseless_custom {nodes : List CustomNode} (built : custom nodes options = .ok source) :
    source.built.tree.Promiseless := by
  obtain ⟨leaves, each, next⟩ := Outcome.bind_eq_ok_iff.mp built
  obtain ⟨⟨tree, mint⟩, planted, returned⟩ := Outcome.bind_eq_ok_iff.mp next
  obtain rfl := Except.ok.inj returned
  refine promiseless_of_buildHierarchy planted (fun spec listed => ?_)
  obtain ⟨leaf, member, rfl⟩ := List.mem_map.mp listed
  obtain ⟨node, _, here⟩ := Outcome.exists_of_mem_right (Outcome.mapM_eq_ok_iff.mp each) member
  have chosen := (customLeaf_spec here).2.1
  rw [Clustering.path] at chosen
  split at chosen
  · rw [← Except.ok.inj chosen]
    exact nofun
  · exact silent_layerPath chosen

end Source

/-- Whatever the view, the edges of a source end on leaves of its tree. -/
theorem endsOnLeaves_of_buildSource {kind : ViewKind} {data : ViewData} {options : HierarchyOptions}
    {source : GraphSource} (built : buildSource kind data options = .ok source) :
    source.EndsOnLeaves := by
  cases kind with
  | references => exact Source.endsOnLeaves_references built
  | methods => exact Source.endsOnLeaves_methods built
  | apis => exact Source.endsOnLeaves_apis built
  | custom => exact Source.endsOnLeaves_custom built

end DependencyDiagram
