import DependencyDiagram.Proofs.Grouping.Plan
import DependencyDiagram.Proofs.Ordered.Contents
import Mathlib.Data.String.Basic

/-!
# Levels of a plan

A level of a plan decides from all its leaves which groups it has and which leaves they take in. Where
single leaves are grouped too, the next label on a leaf's way decides alone. Where they are not, a label
must be shared by two leaves, and a leaf that shares it with no other stands on the level.

Nothing of this depends on what the leaves are, only on what is left of their paths. The draft and the
plan may therefore know leaves by different names and still decide alike.
-/

namespace DependencyDiagram

namespace Placing

variable {α : Type} {level members : List (Placing α)} {placing : Placing α} {label : String}

/-- Where single leaves are grouped too, the next group on a leaf's way takes it in. -/
theorem owner?_false : placing.owner? false level = placing.heading? := by
  rw [owner?]
  cases placing.heading? <;> simp

/-- Where single leaves are grouped too, the members of a group are the leaves with its label. -/
theorem membersOf_false :
    membersOf false level label = level.filter (fun placing => placing.heading? = some label) := by
  simp only [membersOf, owner?_false]

/-- Where single leaves are grouped too, every next label is that of a group. -/
theorem groupLabels_false : groupLabels false level = ascendingMembers (level.filterMap heading?) := by
  simp only [groupLabels, owner?_false]

/-- Where single leaves are grouped too, the leaves without a next label stand on the level. -/
theorem looseLeaves_false :
    looseLeaves false level = level.filter (fun placing => placing.heading?.isNone) := by
  simp only [looseLeaves, owner?_false]

/-- A label is that of a group when the group takes in some leaf. -/
theorem mem_groupLabels {ungroupSingle : Bool} : label ∈ groupLabels ungroupSingle level ↔
    ∃ placing ∈ level, placing.owner? ungroupSingle level = some label := by
  rw [groupLabels, mem_ascendingMembers, List.mem_filterMap]

/-- A group that takes in no leaf is none of the level's. -/
theorem membersOf_eq_nil {ungroupSingle : Bool} (missing : label ∉ groupLabels ungroupSingle level) :
    membersOf ungroupSingle level label = [] := by
  refine List.filter_eq_nil_iff.mpr ?_
  intro placing listed owned
  exact missing (mem_groupLabels.mpr ⟨placing, listed, of_decide_eq_true owned⟩)

/-- Where single leaves are grouped too, a further leaf comes behind the members of the group with its
label, and the other groups keep theirs. -/
theorem membersOf_false_concat {next : String} (heading : placing.heading? = some next) (label : String) :
    membersOf false (level ++ [placing]) label =
      membersOf false level label ++ if next = label then [placing] else [] := by
  rw [membersOf_false, membersOf_false, List.filter_append, List.filter_singleton, heading]
  by_cases here : next = label <;> simp [here]

/-- The labels of groups ascend. -/
theorem groupLabels_ascending (ungroupSingle : Bool) (level : List (Placing α)) :
    (groupLabels ungroupSingle level).Pairwise (· < ·) :=
  (ascendingMembers_ascending _).imp compare_lt_iff_lt.mp

/-- Where no group takes in a leaf, all leaves stand on the level. -/
theorem looseLeaves_eq_self {ungroupSingle : Bool} (none : groupLabels ungroupSingle level = []) :
    looseLeaves ungroupSingle level = level := by
  rw [looseLeaves, List.filter_eq_self]
  intro placing listed
  rw [Option.isNone_iff_eq_none, Option.eq_none_iff_forall_ne_some]
  intro label owned
  have taken : label ∈ groupLabels ungroupSingle level := mem_groupLabels.mpr ⟨placing, listed, owned⟩
  rw [none] at taken
  cases taken

/-- Where single leaves are not grouped, a group takes in two leaves at least. -/
theorem owner?_true : placing.owner? true level = some label ↔
    placing.heading? = some label ∧ 2 ≤ (membersOf false level label).length := by
  rw [owner?, membersOf_false]
  cases placing.heading? with
  | none => simp
  | some next =>
    simp only [true_and, Option.some.injEq]
    constructor
    · intro owned
      split at owned
      · cases owned
      · obtain rfl := Option.some.inj owned
        exact ⟨rfl, by omega⟩
    · rintro ⟨rfl, enough⟩
      rw [if_neg (by omega)]

/-- A leaf that shares its next label with no other leaf is the only one with it. -/
theorem membersOf_eq_singleton (listed : placing ∈ level) (heading : placing.heading? = some label)
    (few : ¬ 2 ≤ (membersOf false level label).length) : membersOf false level label = [placing] := by
  have member : placing ∈ membersOf false level label := by
    rw [membersOf_false]
    exact List.mem_filter.mpr ⟨listed, decide_eq_true heading⟩
  have some := List.length_pos_of_mem member
  obtain ⟨only, members⟩ := List.length_eq_one_iff.mp
    (by omega : (membersOf false level label).length = 1)
  rw [members, List.mem_singleton] at member
  rw [members, member]

/-- A group takes in the same leaves whether or not single leaves are grouped. -/
theorem membersOf_true (grouped : label ∈ groupLabels true level) :
    membersOf true level label = membersOf false level label := by
  obtain ⟨_, _, owned⟩ := mem_groupLabels.mp grouped
  have enough := (owner?_true.mp owned).2
  rw [membersOf, membersOf_false]
  apply List.filter_congr
  intro placing _
  rw [Bool.eq_iff_iff, decide_eq_true_eq, decide_eq_true_eq, owner?_true, and_iff_left enough]

/-- Where single leaves are not grouped, a leaf stands on the level when it has no next label or is
alone with it. -/
theorem owner?_true_eq_none (listed : placing ∈ level) : placing.owner? true level = none ↔
    placing.heading? = none ∨ ∃ label, placing.heading? = some label ∧
      membersOf false level label = [placing] := by
  rw [Option.eq_none_iff_forall_ne_some]
  constructor
  · intro loose
    cases heading : placing.heading? with
    | none => exact Or.inl rfl
    | some label =>
      exact Or.inr ⟨label, rfl, membersOf_eq_singleton listed heading
        (fun enough => loose label (owner?_true.mpr ⟨heading, enough⟩))⟩
  · rintro alone label owned
    obtain ⟨heading, enough⟩ := owner?_true.mp owned
    rcases alone with none | ⟨next, here, members⟩
    · cases none.symm.trans heading
    · obtain rfl := Option.some.inj (heading.symm.trans here)
      simp [members] at enough

/-- The segment from which a group is made, that of its first member. A group has a member, so the bare
bucket is never used for a group of the level; it only makes the segment total. -/
def segmentFor (members : List (Placing α)) (label : String) : Segment :=
  (members.head?.bind (fun first => first.rest.head?)).getD (Segment.bucket label)

/-- Further members do not change the segment from which a group is made. -/
theorem segmentFor_append {further : List (Placing α)} (some : members ≠ []) :
    segmentFor (members ++ further) label = segmentFor members label := by
  cases members with
  | nil => exact absurd rfl some
  | cons first rest => rfl

/-- A group takes in only leaves that have its label next on their way. -/
theorem heading?_of_owner? {ungroupSingle : Bool}
    (owned : placing.owner? ungroupSingle level = some label) : placing.heading? = some label := by
  rw [owner?] at owned
  split at owned
  · cases owned
  · rename_i next heading
    split at owned
    · cases owned
    · rwa [heading]

/-- A group is made from a segment with its label that its first member has. -/
theorem exists_segmentFor {ungroupSingle : Bool} (listed : label ∈ groupLabels ungroupSingle level) :
    ∃ segment, (membersOf ungroupSingle level label).head?.bind (fun first => first.rest.head?) =
      some segment ∧ segmentFor (membersOf ungroupSingle level label) label = segment ∧
      segment.label = label := by
  obtain ⟨placing, present, owned⟩ := List.mem_filterMap.mp (mem_ascendingMembers.mp listed)
  have member : placing ∈ membersOf ungroupSingle level label :=
    List.mem_filter.mpr ⟨present, decide_eq_true owned⟩
  obtain ⟨first, rest, members⟩ := List.exists_cons_of_ne_nil (List.ne_nil_of_mem member)
  have leads : first ∈ membersOf ungroupSingle level label := members ▸ List.mem_cons_self
  obtain ⟨segment, next, named⟩ := Option.map_eq_some_iff.mp
    (heading?_of_owner? (of_decide_eq_true (List.mem_filter.mp leads).2))
  have found : (membersOf ungroupSingle level label).head?.bind (fun first => first.rest.head?) =
      some segment := by
    rw [members]
    exact next
  exact ⟨segment, found, by rw [segmentFor, found, Option.getD_some], named⟩

section Renaming

variable {β : Type} (name : α → β)

/-- The same placing, where the leaf goes by another name. Renaming leaves the labels, the groups and the
leaves that no group takes in as they are, which is all that carries a fact from positions over to
leaves. -/
def rename (name : α → β) (placing : Placing α) : Placing β := ⟨name placing.leaf, placing.rest⟩

/-- What groups a level has, and which leaves they take in, does not depend on how leaves are
named. -/
theorem owner?_rename (ungroupSingle : Bool) :
    (placing.rename name).owner? ungroupSingle (level.map (rename name)) =
      placing.owner? ungroupSingle level := by
  have heading : (placing.rename name).heading? = placing.heading? := rfl
  have counted (label : String) :
      ((level.map (rename name)).filter (fun other => other.heading? = some label)).length =
        (level.filter (fun other => other.heading? = some label)).length := by
    rw [List.filter_map, List.length_map]
    rfl
  simp only [owner?, heading, counted]

/-- Groups take in renamed leaves as they do the leaves. -/
theorem membersOf_rename (ungroupSingle : Bool) (label : String) :
    membersOf ungroupSingle (level.map (rename name)) label =
      (membersOf ungroupSingle level label).map (rename name) := by
  rw [membersOf, membersOf, List.filter_map]
  simp only [Function.comp_def, owner?_rename]

/-- Renamed leaves have the same groups. -/
theorem groupLabels_rename (ungroupSingle : Bool) :
    groupLabels ungroupSingle (level.map (rename name)) = groupLabels ungroupSingle level := by
  rw [groupLabels, groupLabels, List.filterMap_map]
  simp only [Function.comp_def, owner?_rename]

/-- Renamed leaves stand on the level as the leaves do. -/
theorem looseLeaves_rename (ungroupSingle : Bool) :
    looseLeaves ungroupSingle (level.map (rename name)) =
      (looseLeaves ungroupSingle level).map (rename name) := by
  rw [looseLeaves, looseLeaves, List.filter_map]
  simp only [Function.comp_def, owner?_rename]

end Renaming

end Placing

end DependencyDiagram
