import DependencyDiagram.Proofs.Grouping.Levels

/-!
# What a draft comes to

A draft is grown by entering one leaf after the other. Here each of its levels is read off all the leaves
that run through it, without following the order in which they were entered: entering a further leaf
leads from the draft that is read off some leaves to the one that is read off one leaf more. This is
shown by induction on the depth of the draft, for a leaf changes the level inside one group at most and
leaves the other groups as they are.

The order of entering therefore does not matter for where a leaf goes. It matters for the segment of a
group alone, which is that of the first leaf to open the group.
-/

namespace DependencyDiagram

namespace Draft

variable {count : Nat} {labels : List String} {segment other : String → Segment}
  {inside further : String → Draft count} {standing promoted : List (Fin count)}

/-- The level with groups for the given labels and with the given leaves. The labels are taken as they
come, so the groups stand in the order of the list; nothing here asks whether it is ascending or whether
labels repeat. -/
def withGroups (labels : List String) (segment : String → Segment) (inside : String → Draft count)
    (standing : List (Fin count)) : Draft count :=
  labels.foldr (fun label others => group (segment label) (inside label) others) (leaves standing)

/-- Only what stands at its labels matters for a level. -/
theorem withGroups_congr (same : ∀ label ∈ labels, segment label = other label ∧ inside label = further label) :
    withGroups labels segment inside standing = withGroups labels other further standing := by
  induction labels with
  | nil => rfl
  | cons label rest inductionHypothesis =>
    obtain ⟨sameSegment, sameInside⟩ := same label List.mem_cons_self
    have later := inductionHypothesis (fun next listed => same next (List.mem_cons_of_mem label listed))
    simp only [withGroups, List.foldr_cons] at later ⊢
    rw [sameSegment, sameInside, later]

/-- The leaves of a level are behind its groups. -/
theorem mapStanding_withGroups (change : List (Fin count) → List (Fin count)) :
    (withGroups labels segment inside standing).mapStanding change =
      withGroups labels segment inside (change standing) := by
  induction labels with
  | nil => rfl
  | cons label rest inductionHypothesis =>
    exact congrArg (group (segment label) (inside label)) inductionHypothesis

/-- What a segment does to the groups of a level: its own group is changed, or opened where there was
none, and the others stay as they are. -/
theorem inGroup_withGroups {entries : List (String × Unit)} {new : Segment} {change : Draft count → Draft count}
    (ascending : AscendingKeys entries) (named : ∀ label ∈ entries.map Prod.fst, (segment label).label = label)
    (same : ∀ label ∈ entries.map Prod.fst, label ≠ new.label →
      segment label = other label ∧ inside label = further label)
    (present : new.label ∈ entries.map Prod.fst →
      segment new.label = other new.label ∧ change (inside new.label) = further new.label)
    (absent : new.label ∉ entries.map Prod.fst → new = other new.label ∧ change empty = further new.label) :
    inGroup new change (withGroups (entries.map Prod.fst) segment inside standing) =
      withGroups ((insertEntry new.label () entries).map Prod.fst) other further standing := by
  induction entries with
  | nil =>
    obtain ⟨opened, changed⟩ := absent List.not_mem_nil
    change group new (change empty) (leaves standing) =
      group (other new.label) (further new.label) (leaves standing)
    rw [← opened, ← changed]
  | cons entry rest inductionHypothesis =>
    have ascends : AscendingKeys rest := (List.pairwise_cons.mp ascending).2
    have head : (segment entry.1).label = entry.1 := named entry.1 List.mem_cons_self
    change inGroup new change (group (segment entry.1) (inside entry.1)
      (withGroups (rest.map Prod.fst) segment inside standing)) = _
    rw [inGroup, insertEntry, head]
    cases comparison : compare new.label entry.1 with
    | lt =>
      -- The group is opened in front of all others.
      have missing := ascending.not_mem_of_lt comparison
      obtain ⟨opened, changed⟩ := absent missing
      have others : withGroups ((entry :: rest).map Prod.fst) segment inside standing =
          withGroups ((entry :: rest).map Prod.fst) other further standing :=
        withGroups_congr (fun label listed =>
          same label listed (ne_of_mem_of_not_mem listed missing))
      change group new (change empty) (withGroups ((entry :: rest).map Prod.fst) segment inside standing) =
        group (other new.label) (further new.label) (withGroups ((entry :: rest).map Prod.fst) other further standing)
      rw [← opened, ← changed, others]
    | eq =>
      -- The group is the first one, and those behind it have other labels.
      have here : new.label = entry.1 := Std.LawfulEqOrd.eq_of_compare comparison
      obtain ⟨kept, changed⟩ := present (here ▸ List.mem_cons_self)
      have missing : new.label ∉ rest.map Prod.fst := here ▸ ascending.head_not_mem
      have others : withGroups (rest.map Prod.fst) segment inside standing =
          withGroups (rest.map Prod.fst) other further standing :=
        withGroups_congr (fun label listed =>
          same label (List.mem_cons_of_mem _ listed) (ne_of_mem_of_not_mem listed missing))
      change group (segment entry.1) (change (inside entry.1))
          (withGroups (rest.map Prod.fst) segment inside standing) =
        group (other new.label) (further new.label) (withGroups (rest.map Prod.fst) other further standing)
      rw [← kept, ← changed, others, here]
    | gt =>
      -- The group belongs behind the first one, which stays as it is.
      have apart : entry.1 ≠ new.label := by
        intro here
        simp [here] at comparison
      obtain ⟨kept, unchanged⟩ := same entry.1 List.mem_cons_self apart
      have later := inductionHypothesis ascends
        (fun label listed => named label (List.mem_cons_of_mem _ listed))
        (fun label listed => same label (List.mem_cons_of_mem _ listed))
        (fun listed => present (List.mem_cons_of_mem _ listed))
        (fun missing => absent (by
          rw [List.map_cons, List.mem_cons, not_or]
          exact ⟨Ne.symm apart, missing⟩))
      change group (segment entry.1) (inside entry.1)
          (inGroup new change (withGroups (rest.map Prod.fst) segment inside standing)) =
        group (other entry.1) (further entry.1)
          (withGroups ((insertEntry new.label () rest).map Prod.fst) other further standing)
      rw [kept, unchanged, later]

end Draft

namespace Draft

open Placing

variable {count : Nat} {placings : List (Placing (Fin count))} {placing : Placing (Fin count)}
  {depth : Nat}

/-- The draft that is read off all leaves of a level, down to at most the given number of further levels.
It is a draft that was never grown. Each level is filled from the list of its leaves, as a level of the
plan is, and only the induction on the leaves entered so far shows that growing comes to the same. -/
def within (ungroupSingle : Bool) : Nat → List (Placing (Fin count)) → Draft count
  | 0, placings => leaves (placings.map Placing.leaf)
  | depth + 1, placings =>
    withGroups (groupLabels ungroupSingle placings)
      (fun label => segmentFor (membersOf ungroupSingle placings label) label)
      (fun label => within ungroupSingle depth ((membersOf ungroupSingle placings label).map descend))
      ((looseLeaves ungroupSingle placings).map Placing.leaf)

/-- No way runs further than the given number of levels. A level that is read off by a bound on the depth
loses nothing while the bound holds, and stepping into a group takes one from it. -/
def Short (depth : Nat) (placings : List (Placing (Fin count))) : Prop :=
  ∀ placing ∈ placings, placing.rest.length ≤ depth

/-- One level further down the ways run one level less far. -/
theorem Short.descend {members : List (Placing (Fin count))} (short : Short (depth + 1) placings)
    (among : members ⊆ placings) : Short depth (members.map Placing.descend) := by
  intro placing listed
  obtain ⟨above, member, rfl⟩ := List.mem_map.mp listed
  have bounded := short above (among member)
  rw [Placing.descend, List.length_tail]
  omega

/-- The draft of no leaves is empty. -/
theorem within_nil (ungroupSingle : Bool) (depth : Nat) :
    within ungroupSingle depth [] = (empty : Draft count) := by
  cases depth <;> rfl

/-- A leaf that stands on the level of some leaves comes behind those that stand there. -/
theorem within_concat_of_standing (standing : placing.heading? = none) :
    within false (depth + 1) (placings ++ [placing]) =
      (within false (depth + 1) placings).mapStanding (· ++ [placing.leaf]) := by
  have labels : groupLabels false (placings ++ [placing]) = groupLabels false placings := by
    rw [groupLabels_false, groupLabels_false, List.filterMap_append,
      List.filterMap_cons_none standing, List.filterMap_nil, List.append_nil]
  have members (label : String) :
      membersOf false (placings ++ [placing]) label = membersOf false placings label := by
    simp [membersOf_false, standing]
  have loose : looseLeaves false (placings ++ [placing]) = looseLeaves false placings ++ [placing] := by
    simp [looseLeaves_false, standing]
  simp only [within, mapStanding_withGroups, labels, members, loose, List.map_append,
    List.map_singleton]

/-- A leaf that goes on into a group changes what is inside it, or opens the group with its own segment.
Reading a level off one more leaf is compared with the update of the draft group by group: groups with
other labels stay as they are, a group that is there keeps the segment of its first leaf, and a new one
has the leaf for its only member. What happens inside the group is left to the hypothesis on the change. -/
theorem within_concat_of_heading {segment : Segment} {rest : List Segment}
    {change : Draft count → Draft count} (next : placing.rest = segment :: rest)
    (changed : ∀ members : List (Placing (Fin count)), members ⊆ placings →
      change (within false depth (members.map descend)) =
        within false depth ((members ++ [placing]).map descend)) :
    within false (depth + 1) (placings ++ [placing]) =
      (within false (depth + 1) placings).inGroup segment change := by
  have heading : placing.heading? = some segment.label := by rw [heading?, next]; rfl
  have members (label : String) : membersOf false (placings ++ [placing]) label =
      membersOf false placings label ++ if segment.label = label then [placing] else [] :=
    membersOf_false_concat heading label
  have loose : looseLeaves false (placings ++ [placing]) = looseLeaves false placings := by
    simp [looseLeaves_false, heading]
  have labels : groupLabels false (placings ++ [placing]) = (insertEntry segment.label ()
      (((placings.filterMap heading?).map (fun label => (label, ()))).foldl
        (fun entries entry => insertEntry entry.1 entry.2 entries) [])).map Prod.fst := by
    rw [groupLabels_false, List.filterMap_append, List.filterMap_cons_some heading, List.filterMap_nil,
      ascendingMembers, List.map_append, List.foldl_append]
    rfl
  rw [within, within, labels, loose]
  rw [groupLabels_false, ascendingMembers]
  refine (inGroup_withGroups (ascendingMembers_ascending (placings.filterMap heading?)) ?_ ?_ ?_ ?_).symm
  -- The groups there are have the labels of the list, and those with other labels stay as they are.
  · intro label listed
    rw [← ascendingMembers, ← groupLabels_false] at listed
    obtain ⟨_, _, same, named⟩ := exists_segmentFor listed
    rw [same, named]
  · intro label _ apart
    simp only [members label, if_neg (Ne.symm apart), List.append_nil, and_self]
  -- A group that is there keeps the segment of its first member.
  · intro listed
    rw [← ascendingMembers, ← groupLabels_false] at listed
    obtain ⟨_, found, same, _⟩ := exists_segmentFor listed
    refine ⟨?_, ?_⟩
    · have some : membersOf false placings segment.label ≠ [] := by
        intro empty
        rw [empty] at found
        cases found
      rw [members, segmentFor_append some]
    · simp only [members, if_pos]
      exact changed _ (fun _ listed => List.mem_of_mem_filter listed)
  -- A new group has the leaf for its only member.
  · intro missing
    rw [← ascendingMembers, ← groupLabels_false] at missing
    simp only [members, membersOf_eq_nil missing, if_pos, List.nil_append]
    refine ⟨?_, ?_⟩
    · rw [segmentFor, List.head?_cons, Option.bind_some, next]
      rfl
    · rw [← List.nil_append [placing], ← changed [] (List.nil_subset _), List.map_nil, within_nil]

/-- Entering a leaf in the draft of some leaves gives the draft of one leaf more. The leaf changes
the level inside one group at most, where by induction the same holds one level further down. -/
theorem enter_within (short : Short depth (placings ++ [placing])) :
    enter placing.leaf placing.rest (within false depth placings) =
      within false depth (placings ++ [placing]) := by
  induction depth generalizing placings placing with
  | zero =>
    have none : placing.rest = [] :=
      List.eq_nil_of_length_eq_zero (Nat.le_zero.mp (short placing (by simp)))
    rw [none]
    simp [within, enter, mapStanding]
  | succ depth inductionHypothesis =>
    cases next : placing.rest with
    | nil => exact (within_concat_of_standing (by rw [heading?, next]; rfl)).symm
    | cons segment rest =>
      refine (within_concat_of_heading next (fun members among => ?_)).symm
      have below : placing.descend.rest = rest := by rw [descend, next]; rfl
      rw [List.map_append, List.map_singleton, ← inductionHypothesis, below]
      · rfl
      · have further := short.descend (List.append_subset.mpr
          ⟨List.Subset.trans among (List.subset_append_left _ _), List.subset_append_right _ _⟩)
        rwa [List.map_append, List.map_singleton] at further

/-- Leaves that are entered one after the other give the draft of all of them. -/
theorem foldl_enter (short : Short depth placings) :
    placings.foldl (fun draft placing => enter placing.leaf placing.rest draft) empty =
      within false depth placings := by
  induction placings using List.reverseRecOn with
  | nil => exact (within_nil false depth).symm
  | append_singleton placings placing inductionHypothesis =>
    have before := inductionHypothesis (fun other listed => short other (List.mem_append_left _ listed))
    rw [List.foldl_append, before]
    exact enter_within short

end Draft

end DependencyDiagram
