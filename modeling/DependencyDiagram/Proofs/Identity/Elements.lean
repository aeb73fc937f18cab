import DependencyDiagram.Proofs.Identity.Spellings

/-!
# What the text of an element stands for

No text that denotes a node holds the endpoint separator. So the separator tells nodes and edges apart,
and the first one in an edge's text is the one between its ends, whatever the names of the ends are. A
label's text is that of its edge with the suffix behind it. The text alone does not tell the two apart,
since the last name of an edge may end in the suffix; each reader finds what the text denotes for it.

There is no reader for all three kinds of elements. What kind a text is meant to be has to be known from
elsewhere, which for an area is its class.
-/

namespace DependencyDiagram

namespace NodeId

/-- A text that denotes a node does not have the form of an edge. -/
theorem endpointSeparator_not_mem_of_denotes {id : NodeId} {text : String} (denotes : id.Denotes text) :
    endpointSeparator ∉ text.toList := by
  rcases denotes with rfl | ⟨number, stem, spelling, _, whole, spells, rfl⟩
  · exact id.endpointSeparator_not_mem_encode
  · have written := id.endpointSeparator_not_mem_encode
    rw [whole, String.toList_append, List.mem_append, not_or] at written
    rw [String.toList_append, List.mem_append, not_or]
    exact ⟨written.1, (unseparated_of_spells spells).2⟩

end NodeId

namespace EdgeId

/-- A text joins two nodes: it denotes them on the two sides of a separator. There is only one separator
to cut at, so the two nodes are determined by the text. -/
def Joins (client server : NodeId) (text : String) : Prop :=
  ∃ left right, client.Denotes left ∧ server.Denotes right ∧ text = left ++ "~" ++ right

/-- A text that joins two nodes has the form of an edge. -/
theorem Joins.isEdgeText {client server : NodeId} {text : String} (joins : Joins client server text) :
    isEdgeText text = true := by
  obtain ⟨left, right, _, _, rfl⟩ := joins
  simp [DependencyDiagram.isEdgeText, endpointSeparator]

/-- The ends that are read in a text are the nodes that it joins. -/
theorem readEndpoints_eq_ok_iff {text : String} {client server : NodeId} :
    readEndpoints text = .ok (client, server) ↔ Joins client server text := by
  constructor
  · intro read
    rw [readEndpoints] at read
    split at read
    · cases read
    · rename_i left right cut
      obtain ⟨first, ofLeft, further⟩ := Outcome.bind_eq_ok_iff.mp read
      obtain ⟨second, ofRight, both⟩ := Outcome.bind_eq_ok_iff.mp further
      obtain ⟨rfl, rfl⟩ := Prod.mk.inj (Except.ok.inj both)
      exact ⟨left, right, NodeId.decode_eq_ok_iff.mp ofLeft, NodeId.decode_eq_ok_iff.mp ofRight,
        (Text.cutFirst?_eq_some_iff.mp cut).2⟩
  · rintro ⟨left, right, ofLeft, ofRight, rfl⟩
    have cut : Text.cutFirst? endpointSeparator (left ++ "~" ++ right) = some (left, right) :=
      Text.cutFirst?_eq_some_iff.mpr ⟨NodeId.endpointSeparator_not_mem_of_denotes ofLeft, rfl⟩
    rw [readEndpoints, cut]
    simp only [NodeId.decode_eq_ok_iff.mpr ofLeft, NodeId.decode_eq_ok_iff.mpr ofRight]
    rfl

/-- A text is accepted as the edge with this text if it joins two nodes. -/
theorem parse_eq_ok_iff {text : String} {edge : EdgeId} :
    parse text = .ok edge ↔ edge.text = text ∧ ∃ client server, Joins client server text := by
  constructor
  · intro accepted
    obtain ⟨⟨client, server⟩, read, same⟩ := Outcome.bind_eq_ok_iff.mp accepted
    obtain rfl := Except.ok.inj same
    exact ⟨rfl, client, server, readEndpoints_eq_ok_iff.mp read⟩
  · rintro ⟨rfl, client, server, joins⟩
    rw [parse, readEndpoints_eq_ok_iff.mpr joins]
    rfl

end EdgeId

namespace ElementId

/-- A text denotes an element: a node as it may be spelled, an edge by the text that it was given, and
the label of an edge by the edge's text with the suffix. Nodes forget how their text was spelled, while
edges and labels do not. -/
def Denotes : ElementId → String → Prop
  | node id, text => id.Denotes text
  | edge id, text => id.text = text ∧ ∃ client server, EdgeId.Joins client server text
  | edgeLabel id, text => id.labelId = text ∧ ∃ client server, EdgeId.Joins client server id.text

/-- A text is read as the node or the edge that it denotes. The separator tells which of the two readers
is used, and the other kind of element is denoted by no such text. -/
theorem decode_eq_ok_iff {text : String} {element : ElementId} :
    decode text = .ok element ↔ element.Denotes text ∧ ∀ id, element ≠ edgeLabel id := by
  cases form : isEdgeText text with
  | false =>
    have noEdge : ∀ client server, ¬ EdgeId.Joins client server text := by
      intro client server joins
      rw [joins.isEdgeText] at form
      cases form
    rw [decode, form]
    constructor
    · intro read
      obtain ⟨id, decoded, rfl⟩ := Outcome.map_eq_ok_iff.mp read
      refine ⟨NodeId.decode_eq_ok_iff.mp decoded, ?_⟩
      intro label same
      cases same
    · rintro ⟨denotes, noLabel⟩
      cases element with
      | node id => exact Outcome.map_eq_ok_iff.mpr ⟨id, NodeId.decode_eq_ok_iff.mpr denotes, rfl⟩
      | edge id =>
        obtain ⟨_, client, server, joins⟩ := denotes
        exact absurd joins (noEdge client server)
      | edgeLabel id => exact absurd rfl (noLabel id)
  | true =>
    have noNode : ∀ id : NodeId, ¬ id.Denotes text := by
      intro id denotes
      rw [isEdgeText, List.contains_iff_mem] at form
      exact NodeId.endpointSeparator_not_mem_of_denotes denotes form
    rw [decode, form]
    constructor
    · intro read
      obtain ⟨id, accepted, rfl⟩ := Outcome.map_eq_ok_iff.mp read
      refine ⟨EdgeId.parse_eq_ok_iff.mp accepted, ?_⟩
      intro label same
      cases same
    · rintro ⟨denotes, noLabel⟩
      cases element with
      | node id => exact absurd denotes (noNode id)
      | edge id => exact Outcome.map_eq_ok_iff.mpr ⟨id, EdgeId.parse_eq_ok_iff.mpr denotes, rfl⟩
      | edgeLabel id => exact absurd rfl (noLabel id)

/-- A text is read as the label that it denotes. -/
theorem decodeEdgeLabel_eq_ok_iff {text : String} {element : ElementId} :
    decodeEdgeLabel text = .ok element ↔ element.Denotes text ∧ ∃ id, element = edgeLabel id := by
  constructor
  · intro read
    rw [decodeEdgeLabel] at read
    split at read
    · cases read
    · rename_i label before
      obtain ⟨id, accepted, rfl⟩ := Outcome.map_eq_ok_iff.mp read
      obtain ⟨rfl, joins⟩ := EdgeId.parse_eq_ok_iff.mp accepted
      obtain ⟨characters, found, same⟩ := Option.map_eq_some_iff.mp before
      have whole := List.isSuffixOf?_eq_some_iff_append_eq.mp found
      refine ⟨⟨String.toList_inj.mp ?_, joins⟩, id, rfl⟩
      rw [EdgeId.labelId, String.toList_append, ← same, String.toList_ofList, whole]
  · rintro ⟨denotes, id, rfl⟩
    obtain ⟨rfl, joins⟩ := denotes
    rw [decodeEdgeLabel, EdgeId.beforeTrailing_labelId]
    exact Outcome.map_eq_ok_iff.mpr ⟨id, EdgeId.parse_eq_ok_iff.mpr ⟨rfl, joins⟩, rfl⟩

/-- The text of a node does not have the form of an edge and is read as the node. The text of an edge is
read as the edge, whose ends are the two nodes it was made of, and the text of its label as the label of
this edge. Different pairs of nodes make different edges. Altogether the one reader finds exactly the
node or the edge that a text denotes, and the other one the label that it denotes. The last part is about
all texts, those that were written by no one among them. It leaves no text open: each of the two readers
finds what the text denotes for it, and refuses the text where that is nothing. -/
theorem elements_told_apart :
    (∀ id : NodeId, isEdgeText id.encode = false ∧ decode id.encode = .ok (node id)) ∧
      (∀ client server : NodeId,
        decode (EdgeId.ofEndpoints client server).text = .ok (edge (.ofEndpoints client server)) ∧
          (EdgeId.ofEndpoints client server).endpoints = .ok (client, server) ∧
          decodeEdgeLabel (EdgeId.ofEndpoints client server).labelId =
            .ok (edgeLabel (.ofEndpoints client server))) ∧
      Function.Injective (fun ends : NodeId × NodeId => EdgeId.ofEndpoints ends.1 ends.2) ∧
      ∀ (text : String) (element : ElementId),
        (decode text = .ok element ↔ element.Denotes text ∧ ∀ id, element ≠ edgeLabel id) ∧
          (decodeEdgeLabel text = .ok element ↔ element.Denotes text ∧ ∃ id, element = edgeLabel id) := by
  refine ⟨fun id => ⟨id.isEdgeText_encode, decode_encode id⟩, fun client server =>
    ⟨decode_ofEndpoints client server, EdgeId.readEndpoints_ofEndpoints client server,
      decodeEdgeLabel_labelId client server⟩, ?_,
    fun text element => ⟨decode_eq_ok_iff, decodeEdgeLabel_eq_ok_iff⟩⟩
  rintro ⟨client, server⟩ ⟨otherClient, otherServer⟩ same
  obtain ⟨rfl, rfl⟩ := EdgeId.ofEndpoints_injective same
  rfl

/-- A server whose name ends in the suffix is read as the end of an edge, and the same text is that of
the label of another edge. -/
example :
    decode "assembly|A~assembly|B-label" = .ok (edge ⟨"assembly|A~assembly|B-label"⟩) ∧
      decodeEdgeLabel "assembly|A~assembly|B-label" = .ok (edgeLabel ⟨"assembly|A~assembly|B"⟩) := by
  decide

end ElementId

end DependencyDiagram
