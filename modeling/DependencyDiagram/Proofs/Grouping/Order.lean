import DependencyDiagram.Proofs.Grouping.Ways
import Mathlib.Data.List.Nodup
import Mathlib.Data.String.Basic

/-!
# The order of a plan

A plan has at every place the groups there in ascending order of their labels and behind them the leaves
that are at home there in the order of the input. Nothing else of the plan is at the place: what lies in
a group is further down. And a plan lists every group before what lies in it, so that carrying the plan
out from the front always finds the group that an entry goes into.

The order is said one place at a time, as the part of the plan there, and not as an order between any two
entries. The walk from the root visits the tree in the same way, one child list after the other.
-/

namespace DependencyDiagram

namespace PlanEntry

/-- The place that an entry goes to. It is where the node of the entry hangs; the label of the node
itself is not part of it. -/
def around : PlanEntry → List String
  | group around _ => around
  | leaf around _ => around

/-- The place that an entry opens, if it is a group. A leaf opens none, so nothing ever goes below a
leaf. -/
def opens? : PlanEntry → Option (List String)
  | group around segment => some (around ++ [segment.label])
  | leaf _ _ => none

end PlanEntry

/-- Every entry goes to a place that is known or that an earlier entry opens. Carrying out such a plan
never falls back to the root for want of a group. This is the condition under which looking a place up by
its labels finds what the plan means. -/
def Grounded : List (List String) → List PlanEntry → Prop
  | _, [] => True
  | known, entry :: rest => entry.around ∈ known ∧ Grounded (known ++ entry.opens?.toList) rest

/-- The labels of the groups at a place. They are in ascending order and without repetition, as every
level of a plan has them. -/
def groupsAt (options : HierarchyOptions) (specs : List LeafSpec) (place : List String) : List String :=
  Placing.groupLabels options.ungroupSingle (Placing.levelAt options.nested specs place)

/-- The leaves that are at home at a place. The order is that of the input, also between leaves that have
moved up and those that have not. -/
def leavesAt (options : HierarchyOptions) (specs : List LeafSpec) (place : List String) :
    List LeafSpec :=
  specs.filter (fun spec => homeOf options specs spec = place)

/-- The plan from a place on, where what lies in the groups there is given. The inner parts are left
open, so the same equation describes a whole plan and the part of it at one place, which is what is left
when nothing is put in. -/
def planFrom (options : HierarchyOptions) (specs : List LeafSpec) (place : List String)
    (inner : String → List PlanEntry) : List PlanEntry :=
  (groupsAt options specs place).flatMap (fun label =>
    ((segmentOf? options.nested specs (place ++ [label])).map (PlanEntry.group place)).toList ++
      inner label) ++
    (leavesAt options specs place).map (PlanEntry.leaf place)

/-- The part of a plan that is at a place: its groups, without what lies in them, and its
leaves. -/
def entriesAt (options : HierarchyOptions) (specs : List LeafSpec) (place : List String) :
    List PlanEntry :=
  planFrom options specs place (fun _ => [])

variable {options : HierarchyOptions} {specs : List LeafSpec} {place around : List String}
  {label : String}

/-- The groups at a place are those whose labels begin with it and are one label longer. -/
theorem mem_groupsAt : label ∈ groupsAt options specs place ↔ IsGrouped options specs (place ++ [label]) :=
  Placing.mem_groupLabels_levelAt

/-- The groups at a place are listed in ascending order. -/
theorem groupsAt_ascending (options : HierarchyOptions) (specs : List LeafSpec) (place : List String) :
    (groupsAt options specs place).Pairwise (· < ·) :=
  Placing.groupLabels_ascending _ _

/-- A place is listed as a group at most once. -/
theorem groupsAt_nodup : (groupsAt options specs place).Nodup :=
  (groupsAt_ascending options specs place).imp ne_of_lt

namespace Placing

/-- No way runs further than the given number of labels below a place. A plan is computed with a bound on
the depth. The statements about places go by induction on this bound, and the deepest path of the input
gives it for the root. -/
def Deep (nested : Bool) (specs : List LeafSpec) (place : List String) (depth : Nat) : Prop :=
  ∀ spec ∈ through nested specs place, (spec.way nested).length ≤ place.length + depth

/-- No group lies below a place that no way runs beyond. -/
theorem groupsAt_eq_nil (deep : Deep options.nested specs place 0) : groupsAt options specs place = [] := by
  rw [List.eq_nil_iff_forall_not_mem]
  intro label listed
  obtain ⟨first, rest, run⟩ := exists_through (mem_groupsAt.mp listed)
  obtain ⟨present, further⟩ := mem_through.mp (run ▸ List.mem_cons_self : first ∈ _)
  have begins := (List.prefix_append place [label]).trans further
  have short := deep first (mem_through.mpr ⟨present, begins⟩)
  have long := further.length_le
  rw [List.length_append, List.length_singleton] at long
  omega

/-- One label further down the ways run one label less far. -/
theorem deep_succ {depth : Nat} (deep : Deep options.nested specs place (depth + 1)) :
    Deep options.nested specs (place ++ [label]) depth := by
  intro spec run
  obtain ⟨present, further⟩ := mem_through.mp run
  have short := deep spec (mem_through.mpr ⟨present, (List.prefix_append place [label]).trans further⟩)
  rw [List.length_append, List.length_singleton]
  omega

/-- The leaves of a level that no group takes in are planned at the place. -/
theorem map_looseLeaves_levelAt (grouped : place = [] ∨ IsGrouped options specs place) :
    (looseLeaves options.ungroupSingle (levelAt options.nested specs place)).map
        (fun placing => PlanEntry.leaf place placing.leaf) =
      (leavesAt options specs place).map (PlanEntry.leaf place) := by
  rw [leavesAt, ← looseLeaves_levelAt grouped, List.map_map]
  rfl

/-- The plan of a level that no way runs beyond. -/
theorem planWithin_zero (deep : Deep options.nested specs place 0)
    (grouped : place = [] ∨ IsGrouped options specs place) :
    planWithin options.ungroupSingle 0 place (levelAt options.nested specs place) =
      entriesAt options specs place := by
  have loose := looseLeaves_eq_self (groupsAt_eq_nil deep)
  rw [planWithin, entriesAt, planFrom, groupsAt_eq_nil deep, List.flatMap_nil, List.nil_append,
    ← map_looseLeaves_levelAt grouped, loose]

/-- The plan of a level goes on with the plans of the levels one label further down. -/
theorem planWithin_succ (depth : Nat) (grouped : place = [] ∨ IsGrouped options specs place) :
    planWithin options.ungroupSingle (depth + 1) place (levelAt options.nested specs place) =
      planFrom options specs place (fun label =>
        planWithin options.ungroupSingle depth (place ++ [label])
          (levelAt options.nested specs (place ++ [label]))) := by
  rw [planWithin, planFrom, map_looseLeaves_levelAt grouped]
  congr 1
  apply List.flatMap_congr
  intro label listed
  have inner := mem_groupLabels_levelAt.mp listed
  obtain ⟨segment, found, _⟩ := exists_segmentOf? inner
  simp only [segment_membersOf_levelAt inner, descend_membersOf_levelAt inner, found]
  rfl

end Placing

/-- Where a step yields something for one member only, that is all it yields. -/
theorem flatMap_eq_of_single {α β : Type} {items : List α} {item : α} {step : α → List β}
    (distinct : items.Nodup) (listed : item ∈ items)
    (nothing : ∀ other ∈ items, other ≠ item → step other = []) : items.flatMap step = step item := by
  obtain ⟨before, after, rfl⟩ := List.append_of_mem listed
  obtain ⟨_, tailDistinct, apart⟩ := List.nodup_append.mp distinct
  have early : before.flatMap step = [] := by
    rw [List.flatMap_eq_nil_iff]
    intro other present
    exact nothing other (List.mem_append_left _ present) (apart other present item List.mem_cons_self)
  have late : after.flatMap step = [] := by
    rw [List.flatMap_eq_nil_iff]
    intro other present
    refine nothing other (List.mem_append_right _ (List.mem_cons_of_mem _ present)) ?_
    rintro rfl
    exact (List.nodup_cons.mp tailDistinct).1 present
  rw [List.flatMap_append, List.flatMap_cons, early, late, List.nil_append, List.append_nil]

/-- At the place itself a plan has the groups and leaves there, when what lies in the groups is
elsewhere. -/
theorem filter_planFrom_self {inner : String → List PlanEntry}
    (elsewhere : ∀ label ∈ groupsAt options specs place,
      (inner label).filter (fun entry => entry.around = place) = []) :
    (planFrom options specs place inner).filter (fun entry => entry.around = place) =
      entriesAt options specs place := by
  rw [entriesAt, planFrom, planFrom, List.filter_append, List.filter_flatMap]
  congr 1
  · apply List.flatMap_congr
    intro label listed
    rw [List.filter_append, elsewhere label listed, List.filter_eq_self.mpr]
    intro entry present
    obtain ⟨segment, _, rfl⟩ := Option.map_eq_some_iff.mp (Option.mem_toList.mp present)
    exact decide_eq_true rfl
  · rw [List.filter_eq_self]
    intro entry present
    obtain ⟨spec, _, rfl⟩ := List.mem_map.mp present
    exact decide_eq_true rfl

/-- At another place a plan has what lies in the groups. -/
theorem filter_planFrom_of_ne {inner : String → List PlanEntry} (apart : place ≠ around) :
    (planFrom options specs around inner).filter (fun entry => entry.around = place) =
      (groupsAt options specs around).flatMap (fun label =>
        (inner label).filter (fun entry => entry.around = place)) := by
  have leaves : ((leavesAt options specs around).map (PlanEntry.leaf around)).filter
      (fun entry => entry.around = place) = [] := by
    rw [List.filter_eq_nil_iff]
    intro entry present
    obtain ⟨spec, _, rfl⟩ := List.mem_map.mp present
    exact fun same => apart (of_decide_eq_true same).symm
  rw [planFrom, List.filter_append, leaves, List.append_nil, List.filter_flatMap]
  apply List.flatMap_congr
  intro label _
  rw [List.filter_append, List.filter_eq_nil_iff.mpr, List.nil_append]
  intro entry present
  obtain ⟨segment, _, rfl⟩ := Option.map_eq_some_iff.mp (Option.mem_toList.mp present)
  exact fun same => apart (of_decide_eq_true same).symm

/-- A place below another lies in one of the groups there. Of the groups directly below a place at most
one begins a given further place, so the contributions of all the others are empty. This is the step by
which the order of nodes is unfolded from level to level. -/
theorem flatMap_groupsAt (apart : place ≠ around) :
    (groupsAt options specs around).flatMap (fun label =>
        if around ++ [label] <+: place ∧ (place = [] ∨ IsGrouped options specs place) then
          entriesAt options specs place
        else []) =
      if around <+: place ∧ (place = [] ∨ IsGrouped options specs place) then
        entriesAt options specs place
      else [] := by
  by_cases inside : around <+: place ∧ (place = [] ∨ IsGrouped options specs place)
  · obtain ⟨⟨further, rfl⟩, grouped⟩ := inside
    cases further with
    | nil => exact absurd (List.append_nil around) apart
    | cons label rest =>
      have onWay : around ++ [label] <+: around ++ label :: rest := ⟨rest, by simp⟩
      have listed : label ∈ groupsAt options specs around :=
        mem_groupsAt.mpr (isGrouped_of_begins (grouped.resolve_left (by simp)) onWay (by simp))
      rw [if_pos ⟨List.prefix_append _ _, grouped⟩, flatMap_eq_of_single groupsAt_nodup listed,
        if_pos ⟨onWay, grouped⟩]
      intro other _ different
      rw [if_neg]
      rintro ⟨begins, _⟩
      rw [List.prefix_append_right_inj, List.cons_prefix_cons] at begins
      exact different begins.1
  · rw [if_neg inside, List.flatMap_eq_nil_iff]
    intro label _
    rw [if_neg]
    exact fun longer => inside ⟨(List.prefix_append _ _).trans longer.1, longer.2⟩

namespace Placing

/-- The part at a place of a plan that begins at another. It is all that the place has when the
place is in the groups below the other, and nothing otherwise. -/
theorem filter_planWithin {depth : Nat} (deep : Deep options.nested specs around depth)
    (grouped : around = [] ∨ IsGrouped options specs around) (place : List String) :
    (planWithin options.ungroupSingle depth around (levelAt options.nested specs around)).filter
        (fun entry => entry.around = place) =
      if around <+: place ∧ (place = [] ∨ IsGrouped options specs place) then
        entriesAt options specs place
      else [] := by
  induction depth generalizing around with
  | zero =>
    rw [planWithin_zero deep grouped]
    by_cases same : place = around
    · subst same
      rw [entriesAt, filter_planFrom_self (fun _ _ => rfl), if_pos ⟨List.prefix_rfl, grouped⟩]
      rfl
    · rw [entriesAt, filter_planFrom_of_ne same, ← flatMap_groupsAt same, groupsAt_eq_nil deep]
      rfl
  | succ depth inductionHypothesis =>
    have inner (label : String) (listed : label ∈ groupsAt options specs around) :=
      inductionHypothesis (deep_succ deep) (Or.inr (mem_groupsAt.mp listed))
    rw [planWithin_succ depth grouped]
    by_cases same : place = around
    · subst same
      rw [filter_planFrom_self, if_pos ⟨List.prefix_rfl, grouped⟩]
      intro label listed
      rw [inner label listed, if_neg]
      rintro ⟨longer, _⟩
      simpa using longer.length_le
    · rw [filter_planFrom_of_ne same, List.flatMap_congr inner, flatMap_groupsAt same]

end Placing

/-- The plan for a list of leaves begins with the level at the root. -/
theorem planOf_eq (nested ungroupSingle : Bool) (specs : List LeafSpec) :
    planOf nested ungroupSingle specs =
      Placing.planWithin ungroupSingle (deepestPath (Placing.levelAt nested specs [])) []
        (Placing.levelAt nested specs []) := by
  rw [planOf, Placing.levelAt, through_nil]
  rfl

/-- No way runs further than the plan goes down. -/
theorem deep_deepestPath (nested : Bool) (specs : List LeafSpec) :
    Placing.Deep nested specs [] (deepestPath (Placing.levelAt nested specs [])) := by
  intro spec run
  have listed : Placing.below nested [] spec ∈ Placing.levelAt nested specs [] :=
    List.mem_map_of_mem run
  simpa [Placing.below, LeafSpec.way] using length_le_deepestPath listed

/-- The part of the whole plan at a place: all that there is at the root and at a group, and
nothing elsewhere. -/
theorem filter_planOf (place : List String) :
    (planOf options.nested options.ungroupSingle specs).filter (fun entry => entry.around = place) =
      if place = [] ∨ IsGrouped options specs place then entriesAt options specs place else [] := by
  rw [planOf_eq, Placing.filter_planWithin (deep_deepestPath _ _) (Or.inl rfl)]
  simp only [List.nil_prefix, true_and]

/-- All that there is at the root or at a group is the part of the whole plan there. -/
theorem entriesAt_place (grouped : place = [] ∨ IsGrouped options specs place) :
    entriesAt options specs place =
      (planOf options.nested options.ungroupSingle specs).filter (fun entry => entry.around = place) := by
  rw [filter_planOf, if_pos grouped]

/-- An entry is planned exactly when the place it goes to is the root or a group and has it. -/
theorem mem_planOf {entry : PlanEntry} :
    entry ∈ planOf options.nested options.ungroupSingle specs ↔
      (entry.around = [] ∨ IsGrouped options specs entry.around) ∧
        entry ∈ entriesAt options specs entry.around := by
  have here : entry ∈ planOf options.nested options.ungroupSingle specs ↔
      entry ∈ (planOf options.nested options.ungroupSingle specs).filter
        (fun other => other.around = entry.around) := by
    simp [List.mem_filter]
  rw [here, filter_planOf]
  split <;> simp [*]

/-- What is at a place: the groups with their segments, and then the leaves. -/
theorem entriesAt_eq (options : HierarchyOptions) (specs : List LeafSpec) (place : List String) :
    entriesAt options specs place =
      (groupsAt options specs place).filterMap (fun label =>
        (segmentOf? options.nested specs (place ++ [label])).map (PlanEntry.group place)) ++
        (leavesAt options specs place).map (PlanEntry.leaf place) := by
  rw [entriesAt, planFrom, List.filterMap_eq_flatMap_toList]
  simp only [List.append_nil]

/-- A leaf is planned at its home. -/
theorem leaf_mem_planOf_iff {spec : LeafSpec} :
    .leaf place spec ∈ planOf options.nested options.ungroupSingle specs ↔
      spec ∈ specs ∧ homeOf options specs spec = place := by
  have here : .leaf place spec ∈ entriesAt options specs place ↔
      spec ∈ specs ∧ homeOf options specs spec = place := by
    simp [entriesAt_eq, leavesAt]
  rw [mem_planOf, PlanEntry.around, here, and_iff_right_iff_imp]
  rintro ⟨_, rfl⟩
  exact homeOf_grouped

/-- A group is planned with the segment that its place has. -/
theorem group_mem_planOf_iff {segment : Segment} :
    .group place segment ∈ planOf options.nested options.ungroupSingle specs ↔
      IsGrouped options specs (place ++ [segment.label]) ∧
        segmentOf? options.nested specs (place ++ [segment.label]) = some segment := by
  have here : .group place segment ∈ entriesAt options specs place ↔
      ∃ label, IsGrouped options specs (place ++ [label]) ∧
        segmentOf? options.nested specs (place ++ [label]) = some segment := by
    simp [entriesAt_eq, mem_groupsAt]
  rw [mem_planOf, PlanEntry.around, here]
  constructor
  · rintro ⟨_, label, grouped, found⟩
    obtain rfl := label_of_segmentOf? found
    exact ⟨grouped, found⟩
  · rintro ⟨grouped, found⟩
    refine ⟨?_, segment.label, grouped, found⟩
    rw [or_iff_not_imp_left]
    exact isGrouped_of_begins grouped (List.prefix_append _ _)

/-- At a place no entry is listed twice, when no leaf is given twice. -/
theorem nodup_entriesAt (distinct : specs.Nodup) : (entriesAt options specs place).Nodup := by
  rw [entriesAt_eq, List.nodup_append]
  refine ⟨?_, ?_, ?_⟩
  · refine groupsAt_nodup.filterMap ?_
    intro first second entry here there
    obtain ⟨segment, found, rfl⟩ := Option.map_eq_some_iff.mp here
    obtain ⟨other, also, same⟩ := Option.map_eq_some_iff.mp there
    obtain ⟨_, rfl⟩ := PlanEntry.group.inj same
    rw [← label_of_segmentOf? found, ← label_of_segmentOf? also]
  · exact (distinct.filter _).map (fun _ _ same => (PlanEntry.leaf.inj same).2)
  · intro entry listed other also same
    obtain ⟨_, _, planned⟩ := List.mem_filterMap.mp listed
    obtain ⟨_, _, rfl⟩ := Option.map_eq_some_iff.mp planned
    obtain ⟨_, _, rfl⟩ := List.mem_map.mp also
    cases same

/-- No entry is planned twice, when no leaf is given twice. -/
theorem nodup_planOf (distinct : specs.Nodup) :
    (planOf options.nested options.ungroupSingle specs).Nodup := by
  rw [List.nodup_iff_count_le_one]
  intro entry
  -- all occurrences of an entry are at the place it goes to
  have counted : ((planOf options.nested options.ungroupSingle specs).filter
      (fun other => other.around = entry.around)).count entry =
        (planOf options.nested options.ungroupSingle specs).count entry :=
    List.count_filter (decide_eq_true rfl)
  rw [← counted, filter_planOf]
  apply List.nodup_iff_count_le_one.mp
  split
  · exact nodup_entriesAt distinct
  · exact List.nodup_nil

section Grounding

variable {known more : List (List String)}

/-- Where more places are known, entries still go to known places. -/
theorem grounded_mono {entries : List PlanEntry} (within : known ⊆ more)
    (grounded : Grounded known entries) : Grounded more entries := by
  induction entries generalizing known more with
  | nil => trivial
  | cons entry rest inductionHypothesis =>
    refine ⟨within grounded.1, inductionHypothesis ?_ grounded.2⟩
    exact List.append_subset.mpr
      ⟨List.Subset.trans within (List.subset_append_left _ _), List.subset_append_right _ _⟩

/-- A list of entries may be cut anywhere: its beginning opens places for its end. -/
theorem grounded_append {first second : List PlanEntry} :
    Grounded known (first ++ second) ↔
      Grounded known first ∧ Grounded (known ++ first.filterMap PlanEntry.opens?) second := by
  induction first generalizing known with
  | nil => simp [Grounded]
  | cons entry rest inductionHypothesis =>
    rw [List.cons_append, Grounded, Grounded, inductionHypothesis, and_assoc, List.append_assoc]
    cases opened : entry.opens? <;> simp [opened]

/-- Lists of entries that each go to known places do so together. -/
theorem grounded_flatMap {α : Type} {items : List α} {step : α → List PlanEntry}
    (each : ∀ item ∈ items, Grounded known (step item)) : Grounded known (items.flatMap step) := by
  induction items with
  | nil => trivial
  | cons item rest inductionHypothesis =>
    rw [List.flatMap_cons, grounded_append]
    refine ⟨each item List.mem_cons_self, grounded_mono (List.subset_append_left _ _) ?_⟩
    exact inductionHypothesis (fun other listed => each other (List.mem_cons_of_mem item listed))

/-- Leaves at a known place go to known places. -/
theorem grounded_leaves {leaves : List LeafSpec} (inside : place ∈ known) :
    Grounded known (leaves.map (.leaf place)) := by
  rw [List.map_eq_flatMap]
  exact grounded_flatMap (fun _ _ => ⟨inside, trivial⟩)

/-- A plan goes to known places when what lies in its groups goes to places in them. -/
theorem grounded_planFrom {inner : String → List PlanEntry}
    (each : ∀ label ∈ groupsAt options specs place, Grounded [place ++ [label]] (inner label)) :
    Grounded [place] (planFrom options specs place inner) := by
  rw [planFrom, grounded_append]
  refine ⟨grounded_flatMap (fun label listed => ?_), grounded_leaves (by simp)⟩
  obtain ⟨segment, found, rfl⟩ := exists_segmentOf? (mem_groupsAt.mp listed)
  rw [found, grounded_append]
  exact ⟨⟨List.mem_singleton_self _, trivial⟩,
    grounded_mono (by simp [PlanEntry.opens?]) (each segment.label listed)⟩

/-- A plan goes to the place where it begins and to places that it opens before. -/
theorem Placing.grounded_planWithin {depth : Nat} (deep : Deep options.nested specs place depth)
    (grouped : place = [] ∨ IsGrouped options specs place) :
    Grounded [place]
      (planWithin options.ungroupSingle depth place (levelAt options.nested specs place)) := by
  induction depth generalizing place with
  | zero =>
    rw [planWithin_zero deep grouped]
    exact grounded_planFrom (fun _ _ => trivial)
  | succ depth inductionHypothesis =>
    rw [planWithin_succ depth grouped]
    exact grounded_planFrom (fun label listed =>
      inductionHypothesis (deep_succ deep) (Or.inr (mem_groupsAt.mp listed)))

/-- The whole plan goes to the root and to places that it opens before. -/
theorem grounded_planOf (options : HierarchyOptions) (specs : List LeafSpec) :
    Grounded [[]] (planOf options.nested options.ungroupSingle specs) := by
  rw [planOf_eq]
  exact Placing.grounded_planWithin (deep_deepestPath _ _) (Or.inl rfl)

end Grounding

end DependencyDiagram
