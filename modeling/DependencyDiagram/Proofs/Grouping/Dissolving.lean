import DependencyDiagram.Proofs.Grouping.Drafting
import Mathlib.Data.List.Sort

/-!
# What dissolving groups comes to

Groups are dissolved from the inside out: what is inside a group is settled before the group itself is
looked at, and a group goes away when nothing is left inside it but one leaf, which moves up. So a leaf
may move up through several levels. It is shown by induction on the depth of the draft that this
dissolves exactly the groups that a single leaf runs through. A group that two leaves run through keeps
both of them, on its own level or in groups further inside, and so it stays.

The leaves that stand on a level and those that move up to it are brought into the order of the input
at the end. This gives the leaves that no group of the level takes in, in the order of the input.
-/

namespace DependencyDiagram

namespace Draft

open Placing

variable {count : Nat} {placings : List (Placing (Fin count))} {placing : Placing (Fin count)}
  {depth : Nat}

/-- Bringing leaves into the order of the input is sorting them. -/
theorem inInputOrder_eq (standing : List (Fin count)) :
    inInputOrder standing = standing.insertionSort (· ≤ ·) := by
  have one (leaf : Fin count) (others : List (Fin count)) :
      insertLeaf leaf others = others.orderedInsert (· ≤ ·) leaf := by
    induction others with
    | nil => rfl
    | cons next rest inductionHypothesis => rw [insertLeaf, List.orderedInsert, inductionHypothesis]
  induction standing with
  | nil => rfl
  | cons leaf rest inductionHypothesis =>
    rw [List.insertionSort_cons, ← inductionHypothesis, ← one]
    rfl

/-- A level with nothing but one leaf is that of a single leaf, where single leaves are not grouped. A
group that is kept takes in two leaves at least, so a level with groups stands for more than one leaf.
Hence it does not matter that deeper levels were dissolved before this one is asked. -/
theorem onlyLeaf?_within {leaf : Fin count} :
    (within true depth placings).onlyLeaf? = some leaf ↔
      ∃ placing, placings = [placing] ∧ placing.leaf = leaf := by
  have plain (standing : List (Fin count)) :
      (leaves standing).onlyLeaf? = some leaf ↔ standing = [leaf] := by
    rcases standing with _ | ⟨first, _ | ⟨second, rest⟩⟩ <;> simp [onlyLeaf?]
  cases depth with
  | zero => rw [within, plain, List.map_eq_singleton_iff]
  | succ depth =>
    rw [within]
    cases labels : groupLabels true placings with
    | nil =>
      change (leaves _).onlyLeaf? = _ ↔ _
      rw [plain, looseLeaves_eq_self labels, List.map_eq_singleton_iff]
    | cons label rest =>
      change (none : Option (Fin count)) = _ ↔ _
      constructor
      · intro impossible
        cases impossible
      · rintro ⟨placing, rfl, _⟩
        -- a group takes in two leaves at least
        obtain ⟨_, _, owned⟩ := mem_groupLabels.mp (labels ▸ List.mem_cons_self : label ∈ _)
        have few : 2 ≤ [placing].length :=
          Nat.le_trans (owner?_true.mp owned).2 (List.length_filter_le _ _)
        simp at few

/-- A group comes down to one leaf when it takes in this leaf alone. -/
theorem onlyLeaf?_inside {members : List (Placing (Fin count))} {leaf : Fin count} :
    (within true depth (members.map descend)).onlyLeaf? = some leaf ↔
      ∃ member, members = [member] ∧ member.leaf = leaf := by
  rw [onlyLeaf?_within]
  constructor
  · rintro ⟨_, single, rfl⟩
    obtain ⟨member, rfl, rfl⟩ := List.map_eq_singleton_iff.mp single
    exact ⟨member, rfl, rfl⟩
  · rintro ⟨member, rfl, rfl⟩
    exact ⟨member.descend, rfl, rfl⟩

/-- Whether a group goes away is decided when the same was done inside it. -/
theorem sift_group (segment : Segment) (inside others : Draft count) :
    (group segment inside others).sift =
      match inside.ungroupSingle.onlyLeaf? with
      | some leaf => (others.sift.1, leaf :: others.sift.2)
      | none => (group segment inside.ungroupSingle others.sift.1, others.sift.2) :=
  rfl

section Dissolving

variable {labels : List String} {segment : String → Segment} {inside : String → Draft count}
  {standing promoted : List (Fin count)}

/-- Leaves that move up to a level leave its groups alone. -/
theorem promote_withGroups :
    (withGroups labels segment inside standing).promote promoted =
      withGroups labels segment inside
        (if promoted = [] then standing else inInputOrder (standing ++ promoted)) := by
  rw [promote]
  split
  · rfl
  · exact mapStanding_withGroups _

/-- What dissolving does to a level: a group goes away when nothing is left inside it but one leaf,
which moves up, and is kept otherwise with what is left. -/
theorem ungroupSingle_withGroups :
    (withGroups labels segment inside standing).ungroupSingle =
      (withGroups (labels.filter (fun label => (inside label).ungroupSingle.onlyLeaf?.isNone)) segment
        (fun label => (inside label).ungroupSingle) standing).promote
        (labels.filterMap (fun label => (inside label).ungroupSingle.onlyLeaf?)) := by
  have sifted : (withGroups labels segment inside standing).sift =
      (withGroups (labels.filter (fun label => (inside label).ungroupSingle.onlyLeaf?.isNone)) segment
        (fun label => (inside label).ungroupSingle) standing,
        labels.filterMap (fun label => (inside label).ungroupSingle.onlyLeaf?)) := by
    induction labels with
    | nil => rfl
    | cons label rest inductionHypothesis =>
      change (group (segment label) (inside label) (withGroups rest segment inside standing)).sift = _
      rw [sift_group, inductionHypothesis]
      cases only : (inside label).ungroupSingle.onlyLeaf? with
      | none => simp [only, withGroups]
      | some leaf => simp [only]
  rw [ungroupSingle, sifted]

end Dissolving

/-- Leaves that stand on a level together with those that move up to it, in the order of the input. -/
theorem promoted_eq {own promoted target : List (Fin count)} (ascending : own.Pairwise (· < ·))
    (distinct : (own ++ promoted).Nodup) (ordered : target.Pairwise (· < ·))
    (members : ∀ leaf, leaf ∈ target ↔ leaf ∈ own ++ promoted) :
    (if promoted = [] then own else inInputOrder (own ++ promoted)) = target := by
  by_cases none : promoted = []
  · subst none
    rw [if_pos rfl]
    rw [List.append_nil] at members
    exact List.Pairwise.eq_of_mem_iff ascending ordered (fun leaf => (members leaf).symm)
  · rw [if_neg none, inInputOrder_eq]
    refine List.Perm.eq_of_pairwise (fun _ _ _ _ => Fin.le_antisymm)
      (List.pairwise_insertionSort (· ≤ ·) (own ++ promoted)) (ordered.imp Fin.le_of_lt) ?_
    refine (List.perm_insertionSort _ _).trans ?_
    exact (List.perm_ext_iff_of_nodup distinct (ordered.imp Fin.ne_of_lt)).mpr
      (fun leaf => (members leaf).symm)

/-- The labels of groups with two leaves at least are those of groups that do not come down to one
leaf. -/
theorem filter_groupLabels :
    (groupLabels false placings).filter (fun label =>
        (within true depth ((membersOf false placings label).map descend)).onlyLeaf?.isNone) =
      groupLabels true placings := by
  refine List.Pairwise.eq_of_mem_iff ((groupLabels_ascending false placings).filter _)
    (groupLabels_ascending true placings) (fun label => ?_)
  rw [List.mem_filter, Option.isNone_iff_eq_none, Option.eq_none_iff_forall_ne_some, mem_groupLabels,
    mem_groupLabels]
  simp only [owner?_false, owner?_true]
  constructor
  · rintro ⟨⟨placing, listed, heading⟩, several⟩
    refine ⟨placing, listed, heading, ?_⟩
    by_contra few
    exact several placing.leaf
      (onlyLeaf?_inside.mpr ⟨placing, membersOf_eq_singleton listed heading few, rfl⟩)
  · rintro ⟨placing, listed, heading, enough⟩
    refine ⟨⟨placing, listed, heading⟩, fun leaf only => ?_⟩
    obtain ⟨member, single, _⟩ := onlyLeaf?_inside.mp only
    simp [single] at enough

/-- The leaf that alone runs through a group is on the level, and the group is next on its way. -/
theorem heading?_of_singleton {label : String} (alone : membersOf false placings label = [placing]) :
    placing ∈ placings ∧ placing.heading? = some label := by
  have member : placing ∈ membersOf false placings label := alone ▸ List.mem_singleton_self placing
  rw [membersOf_false] at member
  obtain ⟨listed, heading⟩ := List.mem_filter.mp member
  exact ⟨listed, of_decide_eq_true heading⟩

/-- No leaf moves up to a level twice, or to where it stands. The leaves that move up come from different
groups, and a leaf is in one group of a level only. -/
theorem nodup_standing (ascending : (placings.map Placing.leaf).Pairwise (· < ·)) :
    ((looseLeaves false placings).map Placing.leaf ++ (groupLabels false placings).filterMap (fun label =>
      (within true depth ((membersOf false placings label).map descend)).onlyLeaf?)).Nodup := by
  have distinct : (placings.map Placing.leaf).Nodup := ascending.imp Fin.ne_of_lt
  rw [List.nodup_append]
  refine ⟨distinct.sublist (List.filter_sublist.map Placing.leaf), ?_, ?_⟩
  · refine List.Nodup.filterMap ?_ ((groupLabels_ascending false placings).imp ne_of_lt)
    intro first second leaf here there
    obtain ⟨placing, alone, rfl⟩ := onlyLeaf?_inside.mp here
    obtain ⟨other, aloneToo, same⟩ := onlyLeaf?_inside.mp there
    obtain ⟨listed, heading⟩ := heading?_of_singleton alone
    obtain ⟨listedToo, headingToo⟩ := heading?_of_singleton aloneToo
    obtain rfl := List.inj_on_of_nodup_map distinct listedToo listed same
    exact Option.some.inj (heading.symm.trans headingToo)
  · rintro leaf standing other moved rfl
    obtain ⟨placing, loose, same⟩ := List.mem_map.mp standing
    obtain ⟨label, _, only⟩ := List.mem_filterMap.mp moved
    obtain ⟨further, alone, sameToo⟩ := onlyLeaf?_inside.mp only
    obtain ⟨listedToo, heading⟩ := heading?_of_singleton alone
    rw [looseLeaves_false, List.mem_filter] at loose
    obtain rfl := List.inj_on_of_nodup_map distinct loose.1 listedToo (same.trans sameToo.symm)
    simp [heading] at loose

/-- Where single leaves are not grouped, a level has the leaves without a next label and those that
move up to it. -/
theorem mem_looseLeaves_true {leaf : Fin count} : leaf ∈ (looseLeaves true placings).map Placing.leaf ↔
    leaf ∈ (looseLeaves false placings).map Placing.leaf ++
      (groupLabels false placings).filterMap (fun label =>
        (within true depth ((membersOf false placings label).map descend)).onlyLeaf?) := by
  rw [List.mem_append, List.mem_map, List.mem_map, List.mem_filterMap]
  simp only [onlyLeaf?_inside, looseLeaves_false]
  constructor
  · rintro ⟨placing, loose, rfl⟩
    obtain ⟨listed, unowned⟩ := List.mem_filter.mp loose
    rcases (owner?_true_eq_none listed).mp (Option.isNone_iff_eq_none.mp unowned) with
      none | ⟨label, heading, alone⟩
    · exact Or.inl ⟨placing, List.mem_filter.mpr ⟨listed, by rw [none]; rfl⟩, rfl⟩
    · exact Or.inr ⟨label, mem_groupLabels.mpr ⟨placing, listed, owner?_false.trans heading⟩,
        placing, alone, rfl⟩
  · rintro (⟨placing, standing, rfl⟩ | ⟨label, _, placing, alone, rfl⟩)
    · obtain ⟨listed, none⟩ := List.mem_filter.mp standing
      have unowned := (owner?_true_eq_none listed).mpr (Or.inl (Option.isNone_iff_eq_none.mp none))
      exact ⟨placing, List.mem_filter.mpr ⟨listed, by rw [unowned]; rfl⟩, rfl⟩
    · obtain ⟨listed, heading⟩ := heading?_of_singleton alone
      have unowned := (owner?_true_eq_none listed).mpr (Or.inr ⟨label, heading, alone⟩)
      exact ⟨placing, List.mem_filter.mpr ⟨listed, by rw [unowned]; rfl⟩, rfl⟩

/-- Dissolving the groups with a single leaf in the draft with all groups gives the draft in which
groups have two leaves at least. -/
theorem ungroupSingle_within (ascending : (placings.map Placing.leaf).Pairwise (· < ·)) :
    (within false depth placings).ungroupSingle = within true depth placings := by
  induction depth generalizing placings with
  | zero => rfl
  | succ depth inductionHypothesis =>
    have inner (label : String) :
        (within false depth ((membersOf false placings label).map descend)).ungroupSingle =
          within true depth ((membersOf false placings label).map descend) := by
      apply inductionHypothesis
      rw [List.map_map]
      exact ascending.sublist ((List.filter_sublist).map Placing.leaf)
    have ordered (ungroupSingle : Bool) :
        ((looseLeaves ungroupSingle placings).map Placing.leaf).Pairwise (· < ·) :=
      ascending.sublist (List.filter_sublist.map Placing.leaf)
    rw [within, ungroupSingle_withGroups, promote_withGroups, within]
    simp only [inner]
    rw [filter_groupLabels, promoted_eq (ordered false) (nodup_standing ascending) (ordered true)
      (fun _ => mem_looseLeaves_true)]
    apply withGroups_congr
    intro label listed
    rw [membersOf_true listed]
    exact ⟨rfl, rfl⟩

/-- The leaves of the input with the used parts of their paths, known by their positions. A leaf is known
by its position and not by its name, since it is by their positions that leaves which have moved up are
put back into the order of the input. -/
def inputLevel (nested : Bool) (specs : List LeafSpec) : List (Placing (Fin specs.length)) :=
  (List.finRange specs.length).map (fun leaf => ⟨leaf, cutPath nested (specs.get leaf).path⟩)

/-- The draft of a hierarchy, read off the whole input. -/
theorem draftOf_eq_within {nested ungroupSingle : Bool} {specs : List LeafSpec} {depth : Nat}
    (short : Short depth (inputLevel nested specs)) :
    draftOf nested ungroupSingle specs = within ungroupSingle depth (inputLevel nested specs) := by
  have collected : collect nested specs = within false depth (inputLevel nested specs) := by
    rw [← foldl_enter short, inputLevel, List.foldl_map]
    rfl
  have ascending : ((inputLevel nested specs).map Placing.leaf).Pairwise (· < ·) := by
    rw [inputLevel, List.map_map]
    exact (List.map_id _).symm ▸ List.pairwise_lt_finRange specs.length
  rw [draftOf, collected]
  cases ungroupSingle with
  | false => rfl
  | true => exact ungroupSingle_within ascending

end Draft

end DependencyDiagram
