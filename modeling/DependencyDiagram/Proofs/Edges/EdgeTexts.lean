import DependencyDiagram.Proofs.Edges.Merging
import DependencyDiagram.Proofs.Identity.Elements

/-!
# Texts of one edge

A number may be read with a plus sign or zeros in front, and it is written without them. What is read in
a text as a node has forgotten about this. What is read as an edge has not, since an edge keeps its text.
So a text with a padded number on either side is accepted, and its ends are the right ones, but it is not
the identifier of the edge between them: it finds no edge where the edges of pairs are gathered, and as
an element it equals that of no other text. Every other text that is accepted is the identifier of the
edge between its ends.

Only numbers have several spellings. The ends that are known by names have a single one, and for edges
between these nothing of this can happen.
-/

namespace DependencyDiagram

namespace Text

/-- The digits of a positive number do not begin with a zero. -/
theorem head?_toString_ne_zero {value : Nat} (positive : 0 < value) :
    (toString value).toList.head? ≠ some '0' := by
  rw [toList_toString]
  intro first
  obtain ⟨rest, digits⟩ := List.head?_eq_some_iff.mp first
  have denoted : Nat.ofDigitChars 10 rest 0 = value := by
    rw [← ofDigitChars_zeros 1 rest, List.replicate_one, List.singleton_append, ← digits,
      Nat.ofDigitChars_ten_toDigits]
  have decimal : ∀ digit ∈ rest, digit.isDigit = true := by
    intro digit listed
    rw [← toList_toString] at digits
    exact isDigit_of_mem_toString (digits ▸ List.mem_cons_of_mem '0' listed)
  have given : rest ≠ [] := by
    rintro rfl
    exact Nat.ne_of_gt positive denoted.symm
  obtain ⟨zeros, further⟩ := exists_zeros given decimal
  -- the digits would be part of what stands behind their first one
  rw [denoted, digits] at further
  have longer := congrArg List.length further
  rw [List.length_append, List.length_cons] at longer
  omega

end Text

namespace NodeId

/-- The text ends in the number of the identifier, with a plus sign or a zero in front. -/
def IsPadded (id : NodeId) (text : String) : Prop :=
  ∃ number stem spelling, id.number? = some number ∧ id.encode = stem ++ toString number.value ∧
    text = stem ++ spelling ∧
    (spelling.toList.head? = some '+' ∨ spelling.toList.head? = some '0')

/-- A text that denotes an identifier is the written one exactly when it is not padded. Only the number
at the end of an identifier has more than one spelling, so a text that is not the written one differs
from it by a sign or by zeros in front. -/
theorem eq_encode_iff_not_isPadded {id : NodeId} {text : String} (denotes : id.Denotes text) :
    text = id.encode ↔ ¬ id.IsPadded text := by
  constructor
  · rintro rfl ⟨number, stem, spelling, _, whole, same, padding⟩
    have plain : spelling.toList = (toString number.value).toList := by
      have texts := congrArg String.toList (same.symm.trans whole)
      rw [String.toList_append, String.toList_append] at texts
      exact List.append_cancel_left texts
    rw [plain] at padding
    rcases padding with plus | zero
    · exact absurd (isDigit_of_mem_toString (List.mem_of_head? plus)) (by decide)
    · exact Text.head?_toString_ne_zero number.positive zero
  · intro unpadded
    rcases denotes with same | ⟨number, stem, _, numbered, whole, ⟨signed, zeros, rfl⟩, rfl⟩
    · exact same
    · by_contra differs
      refine unpadded ⟨number, stem, _, numbered, whole, rfl, ?_⟩
      cases signed with
      | true => exact Or.inl (by simp)
      | false =>
        cases zeros with
        | zero => exact absurd (by simp [whole]) differs
        | succ zeros => exact Or.inr (by simp [List.replicate_succ])

end NodeId

namespace EdgeId

variable {client server : NodeId} {text : String}

/-- The text has the number of one of the ends with a plus sign or a zero in front. -/
def IsPadded (client server : NodeId) (text : String) : Prop :=
  ∃ left right, client.Denotes left ∧ server.Denotes right ∧ text = left ++ "~" ++ right ∧
    (client.IsPadded left ∨ server.IsPadded right)

/-- What stands on the two sides of the separator is fixed by the text. -/
theorem sides_unique {left right other further : String} (here : client.Denotes left)
    (there : client.Denotes other) (same : left ++ "~" ++ right = other ++ "~" ++ further) :
    left = other ∧ right = further := by
  have cut : Text.cutFirst? endpointSeparator (left ++ "~" ++ right) = some (left, right) :=
    Text.cutFirst?_eq_some_iff.mpr ⟨NodeId.endpointSeparator_not_mem_of_denotes here, rfl⟩
  have again : Text.cutFirst? endpointSeparator (other ++ "~" ++ further) = some (other, further) :=
    Text.cutFirst?_eq_some_iff.mpr ⟨NodeId.endpointSeparator_not_mem_of_denotes there, rfl⟩
  rw [same, again] at cut
  obtain ⟨first, second⟩ := Prod.mk.inj (Option.some.inj cut)
  exact ⟨first.symm, second.symm⟩

/-- A text that joins two nodes is that of the edge between them exactly when it is not padded. -/
theorem eq_ofEndpoints_iff_not_isPadded (joins : Joins client server text) :
    text = (ofEndpoints client server).text ↔ ¬ IsPadded client server text := by
  obtain ⟨left, right, ofLeft, ofRight, rfl⟩ := joins
  have sides : IsPadded client server (left ++ "~" ++ right) ↔
      client.IsPadded left ∨ server.IsPadded right := by
    constructor
    · rintro ⟨other, further, here, _, same, padding⟩
      obtain ⟨rfl, rfl⟩ := sides_unique ofLeft here same
      exact padding
    · exact fun padding => ⟨left, right, ofLeft, ofRight, rfl, padding⟩
  rw [sides, not_or, ← NodeId.eq_encode_iff_not_isPadded ofLeft,
    ← NodeId.eq_encode_iff_not_isPadded ofRight]
  constructor
  · exact fun same => sides_unique ofLeft (Or.inl rfl) same
  · rintro ⟨rfl, rfl⟩
    rfl

end EdgeId

namespace Edges

open Contribution

/-- Among gathered edges the text of an edge finds the edge of its pair exactly when something was
contributed to the pair and the text is not padded. -/
theorem get?_gatherAll_of_joins {client server : NodeId} {text : String}
    (joins : EdgeId.Joins client server text) (contributions : List Contribution) (found : Edge) :
    (empty.gatherAll contributions).get? ⟨text⟩ = some found ↔
      (client, server) ∈ contributions.map ends ∧ ¬ EdgeId.IsPadded client server text ∧
        found = edgeOf contributions (client, server) := by
  rw [get?_gatherAll, ← EdgeId.eq_ofEndpoints_iff_not_isPadded joins]
  constructor
  · rintro ⟨⟨first, second⟩, listed, same, rfl⟩
    have written : text = (EdgeId.ofEndpoints first second).text := congrArg EdgeId.text same
    have read := EdgeId.readEndpoints_eq_ok_iff.mpr joins
    rw [written, EdgeId.readEndpoints_ofEndpoints] at read
    obtain ⟨rfl, rfl⟩ := Prod.mk.inj (Except.ok.inj read)
    exact ⟨listed, written, rfl⟩
  · rintro ⟨listed, written, rfl⟩
    exact ⟨(client, server), listed, EdgeId.eq_of_text written, rfl⟩

end Edges

/-- A text that is accepted as an edge keeps its spelling. It is the identifier of the edge between its
ends exactly when neither end has a padded number in it. Only then does it find the edge that was
gathered for its ends, and as an element it equals that of another text for the same ends only if the two
texts are one. The edges that are searched may be gathered from any contributions. Whether a text finds
the edge of its ends depends on the text alone, provided that there is such an edge. -/
theorem edge_texts_exact {text : String} {edge : EdgeId} {client server : NodeId}
    (accepted : EdgeId.parse text = .ok edge) (ends : edge.endpoints = .ok (client, server)) :
    (edge = EdgeId.ofEndpoints client server ↔ ¬ EdgeId.IsPadded client server text) ∧
      (∀ contributions found,
        (Edges.empty.gatherAll contributions).get? edge = some found ↔
          (client, server) ∈ contributions.map Contribution.ends ∧
            ¬ EdgeId.IsPadded client server text ∧
            found = Contribution.edgeOf contributions (client, server)) ∧
      ElementId.decode text = .ok (.edge edge) ∧
      ∀ other, EdgeId.Joins client server other →
        (ElementId.decode other = ElementId.decode text ↔ other = text) := by
  obtain ⟨rfl, _⟩ := EdgeId.parse_eq_ok_iff.mp accepted
  have joins := EdgeId.readEndpoints_eq_ok_iff.mp ends
  have decoded {other : EdgeId} (joined : EdgeId.Joins client server other.text) :
      ElementId.decode other.text = .ok (.edge other) :=
    ElementId.decode_eq_ok_iff.mpr ⟨⟨rfl, client, server, joined⟩, nofun⟩
  refine ⟨?_, fun contributions found => Edges.get?_gatherAll_of_joins joins contributions found,
    decoded joins, fun other joined => ?_⟩
  · rw [← EdgeId.eq_ofEndpoints_iff_not_isPadded joins]
    exact ⟨congrArg EdgeId.text, EdgeId.eq_of_text⟩
  · rw [decoded joins, @decoded ⟨other⟩ joined]
    simp only [Except.ok.injEq, ElementId.edge.injEq]
    exact ⟨congrArg EdgeId.text, fun same => EdgeId.eq_of_text same⟩

namespace Sample

/-- The name of the assembly is not empty. -/
theorem assembly_ne_empty : "A" ≠ "" := by decide

/-- The name of the assembly is free of separators. -/
theorem assembly_unseparated :
    fieldSeparator ∉ "A".toList ∧ endpointSeparator ∉ "A".toList := by decide

/-- The assembly of two methods. -/
def assemblyName : Name := ⟨"A", assembly_ne_empty, assembly_unseparated⟩

/-- A method. -/
def seventh : NodeId := .member .method assemblyName ⟨7, by decide, by decide⟩

/-- Another method of the assembly. -/
def eighth : NodeId := .member .method assemblyName ⟨8, by decide, by decide⟩

/-- A call from the one method to the other. -/
def call : Contribution := ⟨seventh, eighth, ["x"], true⟩

end Sample

/-- The text that is written for the edge between two methods is accepted and finds the edge. -/
theorem written_text_finds_edge :
    EdgeId.parse "method|A|7~method|A|8" = .ok ⟨"method|A|7~method|A|8"⟩ ∧
      EdgeId.endpoints ⟨"method|A|7~method|A|8"⟩ = .ok (Sample.seventh, Sample.eighth) ∧
      (Edges.empty.gatherAll [Sample.call]).get? ⟨"method|A|7~method|A|8"⟩ =
        some (Contribution.edgeOf [Sample.call] (Sample.seventh, Sample.eighth)) := by
  have accepted : EdgeId.parse "method|A|7~method|A|8" = .ok ⟨"method|A|7~method|A|8"⟩ := by decide
  have ends : EdgeId.endpoints ⟨"method|A|7~method|A|8"⟩ = .ok (Sample.seventh, Sample.eighth) := by
    decide
  obtain ⟨own, finds, _⟩ := edge_texts_exact accepted ends
  exact ⟨accepted, ends, (finds _ _).mpr ⟨by decide, own.mp (by decide), rfl⟩⟩

/-- With a plus sign in front of a number the text is accepted for the same two methods. It is not
the identifier of the edge between them, does not find the edge, and is read as another element. -/
theorem padded_text_misses_edge :
    EdgeId.parse "method|A|+7~method|A|8" = .ok ⟨"method|A|+7~method|A|8"⟩ ∧
      EdgeId.endpoints ⟨"method|A|+7~method|A|8"⟩ = .ok (Sample.seventh, Sample.eighth) ∧
      (⟨"method|A|+7~method|A|8"⟩ : EdgeId) ≠ EdgeId.ofEndpoints Sample.seventh Sample.eighth ∧
      (Sample.seventh, Sample.eighth) ∈ [Sample.call].map Contribution.ends ∧
      (Edges.empty.gatherAll [Sample.call]).get? ⟨"method|A|+7~method|A|8"⟩ = none ∧
      ElementId.decode "method|A|+7~method|A|8" ≠ ElementId.decode "method|A|7~method|A|8" := by
  decide

end DependencyDiagram
