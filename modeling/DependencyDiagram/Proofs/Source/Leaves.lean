import DependencyDiagram.Proofs.Source.Endpoints

/-!
# Leaves of sources

Whatever the view, its source is built in two parts: leaves are made of the data, each with the groups
around it, and a hierarchy is built from them. Making leaves fails on a text that is no name, on a token
of zero, and on a key that leads nowhere. Where all leaves can be made the edges can be made too, for
they lead from leaf to leaf; only the hierarchy can fail then.

The two parts fail for different reasons, and the reason can be told from the kind of the failure. It is
therefore enough to know when leaves can be made and when a hierarchy can be built from them.
-/

namespace DependencyDiagram

/-- A layer that cannot be identified is refused as a malformed identifier. -/
theorem kind_of_layerPath_error {groupBy : String} {above tags : List String} {failure : Failure}
    (refused : layerPath groupBy above tags = .error failure) : failure.kind = .invalidNodeId := by
  induction tags generalizing above with
  | nil => cases refused
  | cons tag rest inductionHypothesis =>
    rcases Outcome.bind_eq_error_iff.mp refused with here | ⟨id, _, further⟩
    · exact NodeId.kind_of_ofLayer here
    · rcases Outcome.bind_eq_error_iff.mp further with below | ⟨_, _, ⟨⟩⟩
      exact inductionHypothesis below

/-- A policy fails on a name only where one of its groups cannot be identified. -/
theorem Clustering.kind_of_path_error {clustering : Clustering} {name : String} {failure : Failure}
    (refused : clustering.path name = .error failure) : failure.kind = .invalidNodeId := by
  cases clustering with
  | byPrefix separator => cases refused
  | byAssembly known =>
    rw [path] at refused
    split at refused <;> cases refused
  | byLayer groupBy layers =>
    rw [path] at refused
    split at refused
    · cases refused
    · exact kind_of_layerPath_error refused

namespace Source

variable {document : Reflection} {data : ViewData} {kind : ViewKind} {failure : Failure}
  {specs : List LeafSpec}

/-- The leaves of a view. They are in the order in which the hierarchy receives them. The first leaf that
cannot be made decides the failure. -/
def leaves (kind : ViewKind) (data : ViewData) : Except Failure (List LeafSpec) :=
  match kind with
  | .references => (assemblyNames data.reflection).mapM
      (leafFromName data.reflection.executables .assembly (.byAssembly data.reflection.assemblies.keys))
  | .methods | .apis => (listedMethods data.reflection kind).mapM
      (fun (method, info) => methodLeaf data.reflection method info)
  | .custom => (data.custom.mapM (customLeaf (data.custom.map CustomNode.id)
      (.byLayer "layer" (layersOf data.custom)))).map (List.map Prod.fst)

/-- A name makes no leaf only where it, or one of its groups, cannot be identified. -/
theorem kind_of_leafFromName_error {executables : List String} {named : NamedKind}
    {clustering : Clustering} {name : String}
    (refused : leafFromName executables named clustering name = .error failure) :
    failure.kind = .invalidNodeId := by
  rw [leafFromName] at refused
  split at refused
  all_goals rcases Outcome.bind_eq_error_iff.mp refused with chosen | ⟨path, _, further⟩
  · cases chosen
  · rcases Outcome.bind_eq_error_iff.mp further with own | ⟨_, _, ⟨⟩⟩
    exact NodeId.kind_of_ofName own
  · exact Clustering.kind_of_path_error chosen
  · rcases Outcome.bind_eq_error_iff.mp further with own | ⟨_, _, ⟨⟩⟩
    exact NodeId.kind_of_ofName own

/-- A method makes no leaf only where its type is missing or something around it cannot be
identified. -/
theorem kind_of_methodLeaf_error {method : MethodRef} {info : MethodInfo}
    (refused : methodLeaf document method info = .error failure) :
    failure.kind ∈ [FailureKind.invalidNodeId, .notFound] := by
  have malformed : FailureKind.invalidNodeId ∈ [FailureKind.invalidNodeId, .notFound] := by decide
  rw [methodLeaf] at refused
  split at refused
  · obtain rfl := Except.error.inj refused
    exact List.mem_cons_of_mem _ List.mem_cons_self
  · rcases Outcome.bind_eq_error_iff.mp refused with assembly | ⟨_, _, next⟩
    · exact (NodeId.kind_of_ofName assembly).symm ▸ malformed
    · rcases Outcome.bind_eq_error_iff.mp next with type | ⟨_, _, further⟩
      · exact (NodeId.kind_of_ofMember type).symm ▸ malformed
      · rcases Outcome.bind_eq_error_iff.mp further with own | ⟨_, _, ⟨⟩⟩
        exact (NodeId.kind_of_ofMember own).symm ▸ malformed

/-- A node makes no leaf only where a dependency is missing or something cannot be identified. -/
theorem kind_of_customLeaf_error {known : List String} {clustering : Clustering} {node : CustomNode}
    (refused : customLeaf known clustering node = .error failure) :
    failure.kind ∈ [FailureKind.invalidNodeId, .notFound] := by
  have malformed : FailureKind.invalidNodeId ∈ [FailureKind.invalidNodeId, .notFound] := by decide
  rcases Outcome.bind_eq_error_iff.mp refused with own | ⟨_, _, next⟩
  · exact (NodeId.kind_of_ofName own).symm ▸ malformed
  · rcases Outcome.bind_eq_error_iff.mp next with each | ⟨_, _, further⟩
    · obtain ⟨dependency, _, missing⟩ := Outcome.exists_of_mapM_eq_error each
      rw [dependencyId] at missing
      split at missing
      · exact (NodeId.kind_of_ofName missing).symm ▸ malformed
      · obtain rfl := Except.error.inj missing
        exact List.mem_cons_of_mem _ List.mem_cons_self
    · rcases Outcome.bind_eq_error_iff.mp further with path | ⟨_, _, ⟨⟩⟩
      exact (Clustering.kind_of_path_error path).symm ▸ malformed

/-- Where all names make leaves, all references make edges. -/
theorem exists_referenceEdges (made : leaves .references data = .ok specs) :
    ∃ given, (referencePairs data.reflection).mapM referenceEdge = .ok given := by
  refine Outcome.mapM_succeeds (fun pair listed => ?_)
  obtain ⟨first, second⟩ := mem_assemblyNames listed
  obtain ⟨client, _, here⟩ := Outcome.exists_of_mem_left (Outcome.mapM_eq_ok_iff.mp made) first
  obtain ⟨server, _, there⟩ := Outcome.exists_of_mem_left (Outcome.mapM_eq_ok_iff.mp made) second
  exact ⟨_, Outcome.bind_eq_ok_iff.mpr ⟨_, id_of_leafFromName here,
    Outcome.bind_eq_ok_iff.mpr ⟨_, id_of_leafFromName there, rfl⟩⟩⟩

/-- Where all listed methods make leaves, all calls between them make edges. -/
theorem exists_callEdges (made : (listedMethods document kind).mapM
      (fun (method, info) => methodLeaf document method info) = .ok specs) :
    ∃ given, (shownCalls document kind).mapM callEdge = .ok given := by
  refine Outcome.mapM_succeeds (fun call shown => ?_)
  obtain ⟨⟨_, caller⟩, ⟨_, callee⟩⟩ := ends_listed kind shown
  obtain ⟨client, _, here⟩ := Outcome.exists_of_mem_left (Outcome.mapM_eq_ok_iff.mp made) caller
  obtain ⟨server, _, there⟩ := Outcome.exists_of_mem_left (Outcome.mapM_eq_ok_iff.mp made) callee
  exact ⟨(client.id, server.id, [call.label]),
    callEdge_eq_ok_iff.mpr ⟨id_of_methodLeaf here, id_of_methodLeaf there, rfl⟩⟩

/-- A view of methods is built from its calls and its methods. -/
theorem ofCalls_of_leaves {listed : List (MethodRef × MethodInfo)} {calls : List Call}
    {given : List (NodeId × NodeId × List String)} (each : calls.mapM callEdge = .ok given)
    (made : listed.mapM (fun (method, info) => methodLeaf document method info) = .ok specs)
    (options : HierarchyOptions) : ofCalls document calls listed options =
      (buildHierarchy specs options Mint.fresh).map
        (fun built => ⟨built.1, given.foldl gatherLeafEdge Edges.empty⟩) := by
  refine (Outcome.bind_of_ok each).trans ((Outcome.bind_of_ok made).trans ?_)
  cases buildHierarchy specs options Mint.fresh <;> rfl

/-- Where all leaves can be made, building a view is building the hierarchy of the leaves. -/
theorem buildSource_of_leaves (made : leaves kind data = .ok specs) : ∃ edges,
    ∀ options, buildSource kind data options =
      (buildHierarchy specs options Mint.fresh).map (fun built => ⟨built.1, edges⟩) := by
  cases kind with
  | references =>
    obtain ⟨given, each⟩ := exists_referenceEdges made
    refine ⟨given.foldl gatherLeafEdge Edges.empty, fun options => ?_⟩
    have planted : buildTree (assemblyNames data.reflection) data.reflection.executables .assembly options
        (.byAssembly data.reflection.assemblies.keys) Mint.fresh = buildHierarchy specs options Mint.fresh :=
      Outcome.bind_of_ok made
    rw [buildSource, references, planted, each]
    cases buildHierarchy specs options Mint.fresh <;> rfl
  | methods | apis =>
    obtain ⟨given, each⟩ := exists_callEdges made
    exact ⟨_, ofCalls_of_leaves each made⟩
  | custom =>
    obtain ⟨leaves, each, rfl⟩ := Outcome.map_eq_ok_iff.mp made
    refine ⟨(leaves.flatMap Prod.snd).foldl gatherLeafEdge Edges.empty, fun options => ?_⟩
    refine (Outcome.bind_of_ok each).trans ?_
    cases buildHierarchy (leaves.map Prod.fst) options Mint.fresh <;> rfl

/-- A call makes no edge only where one of its methods cannot be identified. -/
theorem kind_of_callEdge_error {call : Call} (refused : callEdge call = .error failure) :
    failure.kind = .invalidNodeId := by
  rcases Outcome.bind_eq_error_iff.mp refused with caller | ⟨_, _, further⟩
  · exact NodeId.kind_of_ofMember caller
  · rcases Outcome.bind_eq_error_iff.mp further with callee | ⟨_, _, ⟨⟩⟩
    exact NodeId.kind_of_ofMember callee

/-- Where some method makes no leaf, no view of methods that lists it can be built. Its edges are made
first, so it need not be the leaf that is reported. -/
theorem ofCalls_of_leaves_error {listed : List (MethodRef × MethodInfo)} (calls : List Call)
    (refused : listed.mapM (fun (method, info) => methodLeaf document method info) = .error failure)
    (options : HierarchyOptions) : ∃ other, ofCalls document calls listed options = .error other ∧
      other.kind ∈ [FailureKind.invalidNodeId, .notFound] := by
  cases each : calls.mapM callEdge with
  | error other =>
    obtain ⟨call, _, here⟩ := Outcome.exists_of_mapM_eq_error each
    exact ⟨other, Outcome.bind_eq_error_iff.mpr (Or.inl each),
      (kind_of_callEdge_error here).symm ▸ List.mem_cons_self⟩
  | ok given =>
    obtain ⟨entry, _, here⟩ := Outcome.exists_of_mapM_eq_error refused
    exact ⟨failure, (Outcome.bind_of_ok each).trans (Outcome.bind_eq_error_iff.mpr (Or.inl refused)),
      kind_of_methodLeaf_error here⟩

/-- Where some leaf cannot be made, the view cannot be built either. -/
theorem buildSource_of_leaves_error (refused : leaves kind data = .error failure)
    (options : HierarchyOptions) : ∃ other, buildSource kind data options = .error other ∧
      other.kind ∈ [FailureKind.invalidNodeId, .notFound] := by
  cases kind with
  | references =>
    have planted : buildTree (assemblyNames data.reflection) data.reflection.executables .assembly options
        (.byAssembly data.reflection.assemblies.keys) Mint.fresh = .error failure :=
      Outcome.bind_eq_error_iff.mpr (Or.inl refused)
    obtain ⟨name, _, here⟩ := Outcome.exists_of_mapM_eq_error refused
    exact ⟨failure, Outcome.bind_eq_error_iff.mpr (Or.inl planted),
      (kind_of_leafFromName_error here).symm ▸ List.mem_cons_self⟩
  | methods | apis => exact ofCalls_of_leaves_error _ refused options
  | custom =>
    have each := Outcome.map_eq_error_iff.mp refused
    obtain ⟨node, _, here⟩ := Outcome.exists_of_mapM_eq_error each
    exact ⟨failure, Outcome.bind_eq_error_iff.mpr (Or.inl each), kind_of_customLeaf_error here⟩

/-- A view that is built has leaves and is built from their hierarchy. -/
theorem exists_hierarchy_of_buildSource {options : HierarchyOptions} {source : GraphSource}
    (built : buildSource kind data options = .ok source) :
    ∃ specs further, leaves kind data = .ok specs ∧
      buildHierarchy specs options Mint.fresh = .ok (source.built, further) := by
  cases made : leaves kind data with
  | error refused =>
    obtain ⟨_, failed, _⟩ := buildSource_of_leaves_error made options
    cases built.symm.trans failed
  | ok specs =>
    obtain ⟨edges, same⟩ := buildSource_of_leaves made
    obtain ⟨⟨tree, further⟩, planted, rfl⟩ := Outcome.map_eq_ok_iff.mp ((same options).symm.trans built)
    exact ⟨specs, further, rfl, planted⟩

end Source

end DependencyDiagram
