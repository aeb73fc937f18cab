import DependencyDiagram.Proofs.Source.Crowds

/-!
# Views of methods

The methods view shows the calls of a document: it has a leaf for every method and an edge for every two
methods of which the first lists calls of the second, labelled with the name of the second once for every
time it is listed. The apis view is the part of it that leads from assembly to assembly: of the edges
those whose ends are in different assemblies, and of the leaves those that are ends of such edges.

Calls to methods that were not loaded are left out of both views. A method that calls itself has an edge
from its leaf to the same leaf, and this edge never crosses.

The part is exact in its leaves and edges. Its groups may have other identifiers, because a group takes
its identifier from the first leaf that runs through it, and the part may begin with another leaf.
-/

namespace DependencyDiagram

namespace Source

variable {document : Reflection} {call : Call} {caller callee : MethodRef} {info called : MethodInfo}
  {client server : NodeId} {given : List (NodeId × NodeId × List String)}

/-- Of the calls that a method lists those to another are as many as it lists. -/
theorem filter_listed (listed : List MethodRef)
    (found : document.method? callee.assembly callee.token = some called) :
    (listed.filterMap (fun callee => (document.method? callee.assembly callee.token).map
        (fun called => (⟨caller, callee, called.name⟩ : Call)))).filter
      (fun call => call.caller = caller ∧ call.callee = callee) =
      List.replicate (listed.count callee) ⟨caller, callee, called.name⟩ := by
  induction listed with
  | nil => rfl
  | cons first rest inductionHypothesis =>
    by_cases same : first = callee
    · subst same
      rw [List.filterMap_cons, found, Option.map_some, List.count_cons_self, List.replicate_succ,
        ← inductionHypothesis]
      simp
    · rw [List.count_cons_of_ne same, ← inductionHypothesis, List.filterMap_cons]
      cases document.method? first.assembly first.token with
      | none => rfl
      | some other => simp [same]

/-- The calls from a method to another are as many as the first lists. -/
theorem filter_loadedCalls
    (present : document.method? caller.assembly caller.token = some info)
    (found : document.method? callee.assembly callee.token = some called) :
    (loadedCalls document).filter (fun call => call.caller = caller ∧ call.callee = callee) =
      List.replicate (info.calls.count callee) ⟨caller, callee, called.name⟩ := by
  rw [loadedCalls, List.filter_flatMap,
    flatMap_eq_of_single (nodup_allMethods document).of_map (mem_allMethods_iff.mpr present)]
  · exact filter_listed info.calls found
  · rintro ⟨other, further⟩ among apart
    rw [List.filter_eq_nil_iff]
    intro call lists ofCaller
    obtain ⟨_, _, made⟩ := List.mem_filterMap.mp lists
    obtain ⟨_, _, rfl⟩ := Option.map_eq_some_iff.mp made
    obtain ⟨rfl, _⟩ := of_decide_eq_true ofCaller
    have same := mem_allMethods_iff.mp among
    exact apart (by rw [Option.some.inj (same.symm.trans present)])

/-- The edges given for the calls from a method to another are as many as the first lists, each with
the name of the second. -/
theorem filter_given (each : (loadedCalls document).mapM callEdge = .ok given)
    (present : document.method? caller.assembly caller.token = some info)
    (found : document.method? callee.assembly callee.token = some called)
    (identified : methodId caller = .ok client) (identifiedToo : methodId callee = .ok server) :
    given.filter (fun ends => (ends.1, ends.2.1) = (client, server)) =
      List.replicate (info.calls.count callee) (client, server, [called.name]) := by
  have agree : ∀ call ∈ loadedCalls document, ∀ ends, callEdge call = .ok ends →
      decide (call.caller = caller ∧ call.callee = callee) =
        decide ((ends.1, ends.2.1) = (client, server)) := by
    intro call _ ends made
    obtain ⟨ofCaller, ofCallee, _⟩ := callEdge_eq_ok_iff.mp made
    rw [decide_eq_decide, Prod.mk.injEq]
    constructor
    · rintro ⟨rfl, rfl⟩
      exact ⟨Except.ok.inj (ofCaller.symm.trans identified),
        Except.ok.inj (ofCallee.symm.trans identifiedToo)⟩
    · rintro ⟨rfl, rfl⟩
      exact ⟨methodId_injective ofCaller identified, methodId_injective ofCallee identifiedToo⟩
  have part := Outcome.mapM_eq_ok_iff.mp (Outcome.mapM_filter each agree)
  rw [filter_loadedCalls present found] at part
  refine List.eq_replicate_iff.mpr ⟨?_, fun ends listed => ?_⟩
  · rw [← part.length_eq, List.length_replicate]
  · obtain ⟨call, same, made⟩ := Outcome.exists_of_mem_right part listed
    obtain rfl := List.eq_of_mem_replicate same
    obtain ⟨ofCaller, ofCallee, labels⟩ := callEdge_eq_ok_iff.mp made
    exact Prod.ext (Except.ok.inj (ofCaller.symm.trans identified))
      (Prod.ext (Except.ok.inj (ofCallee.symm.trans identifiedToo)) labels)

/-- The edge for the calls from a method to another. Several calls from one method to another are one
edge. The order in which the calls are listed shows only in the order of the edges. -/
structure IsCallEdge (document : Reflection) (edge : Edge) (caller callee : MethodRef)
    (info called : MethodInfo) : Prop where
  callerLoaded : document.method? caller.assembly caller.token = some info
  calleeLoaded : document.method? callee.assembly callee.token = some called
  listed : callee ∈ info.calls
  client : methodId caller = .ok edge.client
  server : methodId callee = .ok edge.server
  id : edge.id = .ofEndpoints edge.client edge.server
  /-- The name of the second method stands there as often as the first lists it. -/
  labels : edge.labels = List.replicate (info.calls.count callee) called.name
  leaf : edge.isServerLeaf = true

/-- There is one edge for the calls from a method to another. -/
theorem IsCallEdge.unique {edge other : Edge}
    (here : IsCallEdge document edge caller callee info called)
    (there : IsCallEdge document other caller callee info called) : edge = other := by
  have client : edge.client = other.client := Except.ok.inj (here.client.symm.trans there.client)
  have server : edge.server = other.server := Except.ok.inj (here.server.symm.trans there.server)
  have id : edge.id = other.id := by rw [here.id, there.id, client, server]
  have labels : edge.labels = other.labels := here.labels.trans there.labels.symm
  have leaf : edge.isServerLeaf = other.isServerLeaf := here.leaf.trans there.leaf.symm
  cases edge
  cases other
  simp_all

/-- The edge that is gathered for two methods is that of the calls between them. The contributions of the
pair are as many as the calls listed between the two methods, all with the name of the callee for their
label. So the merged edge has this name as often. -/
theorem isCallEdge_edgeOf (each : (loadedCalls document).mapM callEdge = .ok given)
    (present : document.method? caller.assembly caller.token = some info)
    (found : document.method? callee.assembly callee.token = some called)
    (calls : callee ∈ info.calls)
    (identified : methodId caller = .ok client) (identifiedToo : methodId callee = .ok server) :
    (client, server) ∈ (given.map contributionOf).map Contribution.ends ∧
      IsCallEdge document (Contribution.edgeOf (given.map contributionOf) (client, server)) caller callee
        info called := by
  have own := filter_given each present found identified identifiedToo
  have among : (client, server) ∈ (given.map contributionOf).map Contribution.ends := by
    have listed : (client, server, [called.name]) ∈ given.filter
        (fun ends => (ends.1, ends.2.1) = (client, server)) := by
      rw [own]
      exact List.mem_replicate.mpr ⟨(List.count_pos_iff.mpr calls).ne', rfl⟩
    rw [List.map_map]
    exact List.mem_map.mpr ⟨_, (List.mem_filter.mp listed).1, rfl⟩
  refine ⟨among, present, found, calls, identified, identifiedToo, rfl, ?_, ?_⟩
  · have contributions : (given.map contributionOf).filter
        (fun contribution => contribution.ends = (client, server)) =
          (given.filter (fun ends => (ends.1, ends.2.1) = (client, server))).map contributionOf := by
      rw [List.filter_map]
      rfl
    have single : (contributionOf (client, server, [called.name])).labels = [called.name] := rfl
    rw [Contribution.edgeOf, contributions, own, List.map_replicate, List.flatMap_def,
      List.map_replicate, single, List.flatten_replicate_singleton]
  · refine Edges.isServerLeaf_edgeOf among ?_
    intro contribution listed
    obtain ⟨ends, _, rfl⟩ := List.mem_map.mp listed
    rfl

/-- The edges that are gathered for the calls of a document are those of the calls from one of its
methods to another. -/
theorem mem_values_iff (each : (loadedCalls document).mapM callEdge = .ok given) {edge : Edge} :
    edge ∈ (given.foldl gatherLeafEdge Edges.empty).values ↔
      ∃ caller callee info called, IsCallEdge document edge caller callee info called := by
  rw [values_gatherLeafEdges, Contribution.merged, List.mem_map]
  constructor
  · rintro ⟨pair, among, rfl⟩
    rw [List.mem_eraseDups, List.map_map] at among
    obtain ⟨ends, member, rfl⟩ := List.mem_map.mp among
    obtain ⟨call, loaded, made⟩ := Outcome.exists_of_mem_right (Outcome.mapM_eq_ok_iff.mp each) member
    obtain ⟨info, called, present, found, calls, _⟩ := mem_loadedCalls_iff.mp loaded
    obtain ⟨ofCaller, ofCallee, _⟩ := callEdge_eq_ok_iff.mp made
    exact ⟨call.caller, call.callee, info, called,
      (isCallEdge_edgeOf each present found calls ofCaller ofCallee).2⟩
  · rintro ⟨caller, callee, info, called, here⟩
    obtain ⟨among, there⟩ := isCallEdge_edgeOf each here.callerLoaded here.calleeLoaded here.listed
      here.client here.server
    exact ⟨(edge.client, edge.server), List.mem_eraseDups.mpr among, there.unique here⟩

end Source

/-- The name of the assembly of an identified member. Leaves of a view of methods are all of this kind. -/
def NodeId.assembly? : NodeId → Option String
  | member _ assembly _ => some assembly.text
  | _ => none

/-- The ends of an edge are in different assemblies. What is compared are the names of the assemblies and
not the groups in which the leaves stand. -/
def Edge.crosses (edge : Edge) : Bool := edge.client.assembly? != edge.server.assembly?

namespace Source

variable {document : Reflection} {calls : List Call} {listed : List (MethodRef × MethodInfo)}
  {call : Call} {ends : NodeId × NodeId × List String} {given : List (NodeId × NodeId × List String)}

/-- A method is identified within its assembly. -/
theorem assembly?_of_methodId {method : MethodRef} {id : NodeId} (identified : methodId method = .ok id) :
    id.assembly? = some method.assembly := by
  obtain ⟨assembly, token, named, _, rfl⟩ := methodId_eq_ok_iff.mp identified
  exact congrArg some named

/-- A call crosses exactly when its edge does. -/
theorem crosses_of_callEdge (made : callEdge call = .ok ends) :
    call.crosses = (ends.1.assembly? != ends.2.1.assembly?) := by
  obtain ⟨ofCaller, ofCallee, _⟩ := callEdge_eq_ok_iff.mp made
  rw [assembly?_of_methodId ofCaller, assembly?_of_methodId ofCallee, Call.crosses]
  simp [bne]

/-- The edges of the calls that cross are the edges that do. -/
theorem values_crossing (each : (loadedCalls document).mapM callEdge = .ok given) :
    ∃ part, ((loadedCalls document).filter Call.crosses).mapM callEdge = .ok part ∧
      (part.foldl gatherLeafEdge Edges.empty).values =
        (given.foldl gatherLeafEdge Edges.empty).values.filter Edge.crosses := by
  refine ⟨_, Outcome.mapM_filter each (fun call _ ends => crosses_of_callEdge), ?_⟩
  have contributions : (given.filter (fun ends => ends.1.assembly? != ends.2.1.assembly?)).map
      contributionOf = (given.map contributionOf).filter
        (fun contribution => contribution.ends.1.assembly? != contribution.ends.2.assembly?) := by
    rw [List.filter_map]
    rfl
  rw [values_gatherLeafEdges, values_gatherLeafEdges, contributions]
  exact Edges.merged_filter _ (fun pair => pair.1.assembly? != pair.2.assembly?)

/-- A method is an end of calls exactly when its leaf is an end of their edges. Methods are told apart by
their identifiers, so either list may be searched. -/
theorem contains_ends (each : calls.mapM callEdge = .ok given) {method : MethodRef} {id : NodeId}
    (identified : methodId method = .ok id) :
    (calls.flatMap (fun call => [call.caller, call.callee])).contains method =
      (given.flatMap (fun ends => [ends.1, ends.2.1])).contains id := by
  have related := Outcome.mapM_eq_ok_iff.mp each
  rw [Bool.eq_iff_iff, List.contains_iff_mem, List.contains_iff_mem, List.mem_flatMap, List.mem_flatMap]
  constructor
  · rintro ⟨call, among, isEnd⟩
    obtain ⟨ends, member, made⟩ := Outcome.exists_of_mem_left related among
    obtain ⟨ofCaller, ofCallee, _⟩ := callEdge_eq_ok_iff.mp made
    refine ⟨ends, member, ?_⟩
    simp only [List.mem_cons, List.not_mem_nil, or_false] at isEnd ⊢
    rcases isEnd with rfl | rfl
    · exact Or.inl (Except.ok.inj (identified.symm.trans ofCaller))
    · exact Or.inr (Except.ok.inj (identified.symm.trans ofCallee))
  · rintro ⟨ends, member, isEnd⟩
    obtain ⟨call, among, made⟩ := Outcome.exists_of_mem_right related member
    obtain ⟨ofCaller, ofCallee, _⟩ := callEdge_eq_ok_iff.mp made
    refine ⟨call, among, ?_⟩
    simp only [List.mem_cons, List.not_mem_nil, or_false] at isEnd ⊢
    rcases isEnd with rfl | rfl
    · exact Or.inl (methodId_injective identified ofCaller)
    · exact Or.inr (methodId_injective identified ofCallee)

/-- The leaves of the methods that are ends of calls are the leaves that are ends of their edges. -/
theorem leaves_of_ends {specs : List LeafSpec} (each : calls.mapM callEdge = .ok given)
    (made : listed.mapM (fun (method, info) => methodLeaf document method info) = .ok specs) :
    (listed.filter (fun entry =>
      (calls.flatMap (fun call => [call.caller, call.callee])).contains entry.1)).mapM
        (fun (method, info) => methodLeaf document method info) =
      .ok (specs.filter (fun spec =>
        (given.flatMap (fun ends => [ends.1, ends.2.1])).contains spec.id)) :=
  Outcome.mapM_filter made (fun _ _ _ leaf => contains_ends each (id_of_methodLeaf leaf))

end Source

/-- A source shows the calls of a document. Leaves and edges are described in both directions: what the
document says is in the source, and what is in the source is said by the document. For the edges this
includes how many labels each has. -/
structure GraphSource.ShowsCalls (source : GraphSource) (document : Reflection) : Prop where
  /-- Every method of the document has a leaf. -/
  method : ∀ method info, document.method? method.assembly method.token = some info →
    ∃ id, Source.methodId method = .ok id ∧ source.built.tree.HasLeaf id
  /-- There are no other leaves, and every leaf has a name. -/
  leaf : ∀ id, source.built.tree.HasLeaf id →
    (∃ method info, document.method? method.assembly method.token = some info ∧
      Source.methodId method = .ok id) ∧
    ∃ name label, source.built.NamesLeaf name id label
  /-- There is an edge for two methods of which the first lists calls of the second. -/
  called : ∀ caller callee info called,
    document.method? caller.assembly caller.token = some info →
    document.method? callee.assembly callee.token = some called → callee ∈ info.calls →
    ∃ edge ∈ source.edges.values, Source.IsCallEdge document edge caller callee info called
  /-- There are no other edges. -/
  edge : ∀ edge ∈ source.edges.values,
    ∃ caller callee info called, Source.IsCallEdge document edge caller callee info called
  /-- No two edges have the same ends. -/
  single : (source.edges.values.map (fun edge => (edge.client, edge.server))).Nodup

/-- A source is the part of another that leads from assembly to assembly. The edges are those of the
whole in the same order and with the same labels. A leaf of the part has the name and the label that it
has in the whole. -/
structure GraphSource.IsCrossingPart (part whole : GraphSource) : Prop where
  edges : part.edges.values = whole.edges.values.filter Edge.crosses
  leaf : ∀ id, part.built.tree.HasLeaf id ↔
    ∃ edge ∈ part.edges.values, edge.client = id ∨ edge.server = id
  named : ∀ name id label, part.built.NamesLeaf name id label ↔
    whole.built.NamesLeaf name id label ∧ part.built.tree.HasLeaf id

namespace Source

variable {document : Reflection} {options : HierarchyOptions} {source api : GraphSource}

/-- The methods view shows the calls of the document. There is one field for each direction: every method
has a leaf and every leaf is a method's, every call has an edge and every edge is one of calls, and no
pair has two edges. -/
theorem showsCalls_of_methods (built : methods document options = .ok source) :
    source.ShowsCalls document := by
  obtain ⟨given, specs, tree, further, each, made, planted, rfl⟩ := ofCalls_eq_ok_iff.mp built
  have leaves := Outcome.mapM_eq_ok_iff.mp made
  exact {
    method := by
      intro method info found
      obtain ⟨spec, present, leaf⟩ :=
        Outcome.exists_of_mem_left leaves (mem_allMethods_of_method? found)
      exact ⟨spec.id, id_of_methodLeaf leaf, hasLeaf_of_buildHierarchy planted present⟩
    leaf := by
      intro id has
      obtain ⟨spec, present, rfl⟩ := (hasLeaf_iff_of_buildHierarchy planted).mp has
      obtain ⟨⟨method, info⟩, among, leaf⟩ := Outcome.exists_of_mem_right leaves present
      refine ⟨⟨method, info, mem_allMethods_iff.mp among, id_of_methodLeaf leaf⟩, ?_⟩
      exact ⟨spec.name, spec.label,
        (namesLeaf_iff_of_buildHierarchy planted).mpr ⟨spec, present, rfl, rfl, rfl⟩⟩
    called := by
      intro caller callee info called present found calls
      have loaded : ⟨caller, callee, called.name⟩ ∈ loadedCalls document :=
        mem_loadedCalls_iff.mpr ⟨info, called, present, found, calls, rfl⟩
      obtain ⟨ends, _, edge⟩ := Outcome.exists_of_mem_left (Outcome.mapM_eq_ok_iff.mp each) loaded
      obtain ⟨ofCaller, ofCallee, _⟩ := callEdge_eq_ok_iff.mp edge
      have here := (isCallEdge_edgeOf each present found calls ofCaller ofCallee).2
      exact ⟨_, (mem_values_iff each).mpr ⟨caller, callee, info, called, here⟩, here⟩
    edge := fun edge listed => (mem_values_iff each).mp listed
    single := by
      rw [values_gatherLeafEdges]
      exact Edges.ends_merged_nodup _ }

/-- The apis view is the crossing part of the methods view. Both views are made from the same document.
The calls of the apis view are those of the methods view that cross, and its leaves are those of the
methods view that stand at their ends, so both views make them in the same way. -/
theorem isCrossingPart_of_apis (built : methods document options = .ok source)
    (crossing : apis document options = .ok api) : api.IsCrossingPart source := by
  obtain ⟨given, specs, tree, further, each, made, planted, rfl⟩ := ofCalls_eq_ok_iff.mp built
  obtain ⟨part, partEach, values⟩ := values_crossing each
  have partMade := leaves_of_ends partEach made
  have onLeaves := endsOnLeaves_apis crossing
  obtain ⟨_, _, partTree, partFurther, same, sameLeaves, partPlanted, rfl⟩ :=
    ofCalls_eq_ok_iff.mp crossing
  obtain rfl := Except.ok.inj (partEach.symm.trans same)
  obtain rfl := Except.ok.inj (partMade.symm.trans sameLeaves)
  exact {
    edges := values
    leaf := by
      intro id
      constructor
      · intro has
        obtain ⟨spec, kept, rfl⟩ := (hasLeaf_iff_of_buildHierarchy partPlanted).mp has
        obtain ⟨ends, given, isEnd⟩ :=
          List.mem_flatMap.mp (List.contains_iff_mem.mp (List.mem_filter.mp kept).2)
        obtain ⟨edge, listed, client, server⟩ := exists_edge_of_given given
        refine ⟨edge, listed, ?_⟩
        rw [client, server]
        simpa [eq_comm] using isEnd
      · rintro ⟨edge, listed, rfl | rfl⟩
        · exact (onLeaves edge listed).1
        · exact (onLeaves edge listed).2
    named := by
      intro name id label
      rw [namesLeaf_iff_of_buildHierarchy partPlanted, namesLeaf_iff_of_buildHierarchy planted,
        hasLeaf_iff_of_buildHierarchy partPlanted]
      constructor
      · rintro ⟨spec, kept, named, identified, labelled⟩
        exact ⟨⟨spec, (List.mem_filter.mp kept).1, named, identified, labelled⟩, spec, kept, identified⟩
      · rintro ⟨⟨spec, given, named, rfl, labelled⟩, other, kept, same⟩
        -- whether a leaf is kept depends on its identifier only
        have isEnd := (List.mem_filter.mp kept).2
        rw [same] at isEnd
        exact ⟨spec, List.mem_filter.mpr ⟨given, isEnd⟩, named, rfl, labelled⟩ }

/-- Where the methods view can be built and its positions fit into words, the apis view can be
built. -/
theorem exists_apis (built : methods document options = .ok source)
    (fits : source.built.tree.FitsWord) : ∃ api, apis document options = .ok api := by
  obtain ⟨given, specs, tree, further, each, made, planted, rfl⟩ := ofCalls_eq_ok_iff.mp built
  obtain ⟨part, partEach, _⟩ := values_crossing each
  have apart := identifiersApart_of_methodLeaves made (nodup_allMethods document)
  obtain ⟨partTree, partFurther, partPlanted⟩ :=
    exists_buildHierarchy_of_sublist planted apart List.filter_sublist fits
  exact ⟨_, ofCalls_eq_ok_iff.mpr ⟨part, _, partTree, partFurther, partEach,
    leaves_of_ends partEach made, partPlanted, rfl⟩⟩

end Source

/-- Where the methods view can be built, it shows exactly the calls of the document. The apis view can be
built then too, as long as the positions of the tree fit into words, and it is exactly the part of the
methods view that leads from assembly to assembly. The bound is met by every tree whose positions are
stored as they are meant. Without it the part can fail where the whole does not, because its groups need
other identifiers; that the part can be built is therefore not clear from the whole alone. -/
theorem calls_shown_exactly {data : ViewData} {options : HierarchyOptions} {source : GraphSource}
    (built : buildSource .methods data options = .ok source) :
    source.ShowsCalls data.reflection ∧
      (source.built.tree.FitsWord → ∃ api, buildSource .apis data options = .ok api) ∧
      ∀ api, buildSource .apis data options = .ok api → api.IsCrossingPart source :=
  ⟨Source.showsCalls_of_methods built, Source.exists_apis built,
    fun _ crossing => Source.isCrossingPart_of_apis built crossing⟩

/-- Two assemblies. A method of the first calls itself, a method beside it twice, one of the second, and
one of an assembly that was not loaded; the one that it calls twice calls nothing. -/
def Sample.callingData : ViewData :=
  ⟨{ Reflection.empty with
      assemblies := .ofList [
        ("Client", ⟨["Server"], [⟨some "Client.Core", "Worker", 1⟩]⟩),
        ("Server", ⟨[], [⟨none, "Api", 1⟩]⟩)]
      methods := .ofList [
        ("Client", .ofList [
          (1, ⟨"Run()", 1,
            [⟨"Client", 2⟩, ⟨"Server", 7⟩, ⟨"Client", 2⟩, ⟨"Client", 1⟩, ⟨"Other", 1⟩]⟩),
          (2, ⟨"Step()", 1, []⟩)]),
        ("Server", .ofList [(7, ⟨"Answer()", 1, []⟩)])] }, []⟩

/-- The sample's methods view shows its calls, and its apis view is the crossing part of that. -/
theorem calls_of_sample_shown : ∃ source api,
    buildSource .methods Sample.callingData ⟨true, false⟩ = .ok source ∧
      buildSource .apis Sample.callingData ⟨true, false⟩ = .ok api ∧
      source.ShowsCalls Sample.callingData.reflection ∧ api.IsCrossingPart source := by
  have succeeds : ((buildSource .methods Sample.callingData ⟨true, false⟩).toOption.filter
      (fun source => source.built.tree.FitsWord)).isSome := by
    decide
  obtain ⟨source, kept⟩ := Option.isSome_iff_exists.mp succeeds
  obtain ⟨found, fits⟩ := Option.filter_eq_some_iff.mp kept
  have built := Outcome.toOption_eq_some_iff.mp found
  obtain ⟨shows, exists_api, crossing⟩ := calls_shown_exactly built
  obtain ⟨api, builtToo⟩ := exists_api (of_decide_eq_true fits)
  exact ⟨source, api, built, builtToo, shows, crossing api builtToo⟩

/-- Where the tree of the methods view has more nodes than there are words for positions, the apis view
may fail although the methods view is built: in a crowd of assemblies it needs numbers of the mint which
the methods view does not need, and there are too few of them. -/
theorem crowd_has_no_apis_view : ∃ source failure,
    buildSource .methods (Sample.crowdedData Text.maxWord32) ⟨true, false⟩ = .ok source ∧
      buildSource .apis (Sample.crowdedData Text.maxWord32) ⟨true, false⟩ = .error failure := by
  obtain ⟨specs, made, distinct⟩ := Sample.exists_leaves_crowd (Or.inl rfl) Text.maxWord32
  obtain ⟨fewer, madeToo, distinctToo⟩ := Sample.exists_leaves_crowd (Or.inr rfl) Text.maxWord32
  obtain ⟨source, built⟩ :=
    (Source.buildSource_of_distinct made distinct _).1.mpr (Sample.mintSuffices_crowd made)
  cases outcome : buildSource .apis (Sample.crowdedData Text.maxWord32) ⟨true, false⟩ with
  | error failure => exact ⟨source, failure, built, rfl⟩
  | ok api =>
    exact absurd ((Source.buildSource_of_distinct madeToo distinctToo _).1.mp ⟨api, outcome⟩)
      (Sample.not_mintSuffices_crowd madeToo (Nat.le_refl _))

end DependencyDiagram
