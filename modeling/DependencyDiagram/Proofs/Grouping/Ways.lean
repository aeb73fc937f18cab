import DependencyDiagram.Proofs.Grouping.Levels
import Mathlib.Data.List.Basic
import Mathlib.Data.Nat.Find

/-!
# Ways of leaves

The way of a leaf is the labels on the used part of its path. A place is given by labels, and
a way runs through the place when it begins with them. The groups of a hierarchy are the places
below the root that enough ways run through, and a leaf is at home in the innermost group on its
way. All of this is said of the input as a whole, without following the levels of a plan.

A plan goes down level by level, and its level at a place holds the leaves whose ways run through
the place, each with what is left of its path. So what a level decides about its members is what
the ways say about the places one label further down.
-/

namespace DependencyDiagram

/-- The labels on the used part of a leaf's path, outermost first. The used part is the whole path where
groups are nested and at most its first segment otherwise. -/
def LeafSpec.way (nested : Bool) (spec : LeafSpec) : List String :=
  (cutPath nested spec.path).map Segment.label

/-- The leaves whose ways run through a place, in the order of the input. The first of them is the one
that a group at the place is made from. -/
def through (nested : Bool) (specs : List LeafSpec) (labels : List String) : List LeafSpec :=
  specs.filter (fun spec => labels <+: spec.way nested)

/-- A place below the root is a group when a way runs through it, or when two do where single leaves are
not to be grouped. A longer place has no more ways through it than its beginnings, so every place above a
group is one as well, and the groups on the way of a leaf are the beginnings of one particular beginning. -/
def IsGrouped (options : HierarchyOptions) (specs : List LeafSpec) (labels : List String) : Prop :=
  labels ≠ [] ∧ (if options.ungroupSingle then 2 else 1) ≤ (through options.nested specs labels).length

instance (options : HierarchyOptions) (specs : List LeafSpec) :
    DecidablePred (IsGrouped options specs) :=
  fun _ => inferInstanceAs (Decidable (_ ∧ _))

/-- The length of the longest beginning of a leaf's way that is a group. It is zero where no beginning is
a group, which puts the leaf below the root. -/
def homeDepth (options : HierarchyOptions) (specs : List LeafSpec) (spec : LeafSpec) : Nat :=
  Nat.findGreatest (fun count => IsGrouped options specs ((spec.way options.nested).take count))
    (spec.way options.nested).length

/-- The place where a leaf is at home: the longest beginning of its way that is a group, or else the
root. It says where the leaf is found in the built tree. Dissolving moves a leaf up level by level; here
the level it arrives at is named outright. -/
def homeOf (options : HierarchyOptions) (specs : List LeafSpec) (spec : LeafSpec) : List String :=
  (spec.way options.nested).take (homeDepth options specs spec)

/-- The segment that a group is made from: the one that the first leaf to run through the group has
there. It exists for every place that a way runs through. The leaves after the first may have segments
with other identifiers or promises at the same place; these are not used. -/
def segmentOf? (nested : Bool) (specs : List LeafSpec) (labels : List String) : Option Segment :=
  (through nested specs labels).head?.bind
    (fun first => (cutPath nested first.path)[labels.length - 1]?)

variable {options : HierarchyOptions} {nested : Bool} {specs : List LeafSpec} {spec : LeafSpec}
  {around labels : List String} {label : String}

/-- The leaves that run through a place are those with ways that begin with its labels. -/
theorem mem_through : spec ∈ through nested specs labels ↔ spec ∈ specs ∧ labels <+: spec.way nested := by
  rw [through, List.mem_filter, decide_eq_true_eq]

/-- Every way runs through the root. -/
theorem through_nil : through nested specs [] = specs := by
  simp [through]

/-- A group lies in groups only. -/
theorem isGrouped_of_begins (grouped : IsGrouped options specs labels) (begins : around <+: labels)
    (below : around ≠ []) : IsGrouped options specs around := by
  have fewer : (through options.nested specs labels).Sublist (through options.nested specs around) :=
    List.monotone_filter_right specs
      (fun _ further => decide_eq_true (begins.trans (of_decide_eq_true further)))
  exact ⟨below, Nat.le_trans grouped.2 fewer.length_le⟩

/-- Where single leaves are grouped too, every place on a leaf's way is a group. -/
theorem isGrouped_of_single (single : options.ungroupSingle = false) (given : spec ∈ specs)
    (begins : labels <+: spec.way options.nested) (below : labels ≠ []) :
    IsGrouped options specs labels := by
  refine ⟨below, ?_⟩
  rw [if_neg (by simp [single])]
  exact List.length_pos_of_mem (mem_through.mpr ⟨given, begins⟩)

/-- Some way runs through every group. -/
theorem exists_through (grouped : IsGrouped options specs labels) :
    ∃ first rest, through options.nested specs labels = first :: rest := by
  apply List.exists_cons_of_length_pos
  have enough := grouped.2
  split at enough <;> omega

/-- A leaf's home is on its way. -/
theorem homeOf_begins : homeOf options specs spec <+: spec.way options.nested := List.take_prefix _ _

/-- A home is not longer than the way. -/
theorem homeDepth_le : homeDepth options specs spec ≤ (spec.way options.nested).length :=
  Nat.findGreatest_le _

/-- A leaf's home is the root or a group. -/
theorem homeOf_grouped :
    homeOf options specs spec = [] ∨ IsGrouped options specs (homeOf options specs spec) := by
  by_cases none : homeDepth options specs spec = 0
  · exact Or.inl (by rw [homeOf, none, List.take_zero])
  · exact Or.inr ((Nat.findGreatest_eq_iff.mp (rfl : homeDepth options specs spec = _)).2.1 none)

/-- A leaf is at home in a place on its way exactly when its home has the length of the place. -/
theorem homeOf_eq_iff_homeDepth (begins : around <+: spec.way options.nested) :
    homeOf options specs spec = around ↔ homeDepth options specs spec = around.length := by
  constructor
  · rintro rfl
    rw [homeOf, List.length_take, Nat.min_eq_left homeDepth_le]
  · intro length
    rw [homeOf, length, ← List.prefix_iff_eq_take.mp begins]

/-- A leaf is at home in a place on its way unless a group further down is on its way as well. -/
theorem homeOf_eq_iff (begins : around <+: spec.way options.nested)
    (grouped : around = [] ∨ IsGrouped options specs around) :
    homeOf options specs spec = around ↔
      ∀ label, around ++ [label] <+: spec.way options.nested →
        ¬ IsGrouped options specs (around ++ [label]) := by
  have whole := List.prefix_iff_eq_take.mp begins
  rw [homeOf_eq_iff_homeDepth begins, homeDepth, Nat.findGreatest_eq_iff]
  constructor
  · rintro ⟨-, -, none⟩ label further
    have taken := List.prefix_iff_eq_take.mp further
    have inside := further.length_le
    rw [List.length_append, List.length_singleton] at taken inside
    rw [taken]
    exact none (Nat.lt_succ_self _) inside
  · intro last
    refine ⟨begins.length_le, fun below => ?_, fun count longer inside inner => ?_⟩
    · rw [← whole]
      exact grouped.resolve_left (mt (congrArg List.length) below)
    · -- a longer beginning that is a group lies in the one that is one label longer
      have next : (spec.way options.nested).take (around.length + 1) =
          around ++ [(spec.way options.nested)[around.length]] := by
        rw [List.take_succ_eq_append_getElem (Nat.lt_of_lt_of_le longer inside), ← whole]
      have further : around ++ [(spec.way options.nested)[around.length]] <+:
          (spec.way options.nested).take count := next ▸ List.take_prefix_take_left longer
      exact last _ (further.trans (List.take_prefix _ _))
        (isGrouped_of_begins inner further (by simp))

namespace Placing

/-- A leaf with what is left of its path below a place. -/
def below (nested : Bool) (around : List String) (spec : LeafSpec) : Placing LeafSpec :=
  ⟨spec, (cutPath nested spec.path).drop around.length⟩

/-- The level at a place: the leaves whose ways run through it. A level is given by its place, so two
levels reached along different branches of the plan need no comparison beyond that of their places. -/
def levelAt (nested : Bool) (specs : List LeafSpec) (around : List String) :
    List (Placing LeafSpec) :=
  (through nested specs around).map (below nested around)

/-- What a condition leaves of a level are those leaves of the input that run through the place and
meet the condition there. -/
theorem map_filter_levelAt (condition : Placing LeafSpec → Bool) :
    ((levelAt nested specs around).filter condition).map Placing.leaf =
      specs.filter (fun spec =>
        decide (around <+: spec.way nested) && condition (below nested around spec)) := by
  have plain : Placing.leaf ∘ below nested around = id := rfl
  rw [levelAt, List.filter_map, List.map_map, plain, List.map_id, through, List.filter_filter]
  exact List.filter_congr (fun spec _ => Bool.and_comm _ _)

/-- One step further down is one label further down. -/
theorem descend_below : (below nested around spec).descend = below nested (around ++ [label]) spec := by
  simp [below, descend]

/-- The next label on a leaf's way is the one with which the way goes on. -/
theorem heading?_below (begins : around <+: spec.way nested) :
    (below nested around spec).heading? = some label ↔ around ++ [label] <+: spec.way nested := by
  obtain ⟨rest, whole⟩ := begins
  have left : (below nested around spec).heading? = rest.head? := by
    rw [heading?, below, ← List.head?_map, List.map_drop, ← LeafSpec.way, ← whole, List.drop_left]
  rw [left, ← whole, List.prefix_append_right_inj]
  cases rest <;> simp [eq_comm]

/-- The leaves of a level with a common next label are those that run through the place there. -/
theorem filter_heading?_levelAt :
    (levelAt nested specs around).filter (fun placing => placing.heading? = some label) =
      (through nested specs (around ++ [label])).map (below nested around) := by
  rw [levelAt, List.filter_map, through, through, List.filter_filter]
  congr 1
  apply List.filter_congr
  intro spec _
  by_cases begins : around <+: spec.way nested
  · simp [Function.comp_apply, heading?_below begins, begins]
  · have short : ¬ around ++ [label] <+: spec.way nested :=
      fun further => begins ((List.prefix_append _ _).trans further)
    simp [begins, short]

/-- A group takes a leaf in when it is on the leaf's way and grouped. Ownership is decided by counting
the leaves of the level that go on with the same label. These are the leaves of the whole construction
that run through the group's place, and this number decides whether the place is grouped. -/
theorem owner?_levelAt (begins : around <+: spec.way options.nested) (listed : spec ∈ specs) :
    (below options.nested around spec).owner? options.ungroupSingle
        (levelAt options.nested specs around) = some label ↔
      around ++ [label] <+: spec.way options.nested ∧ IsGrouped options specs (around ++ [label]) := by
  rw [owner?, ← heading?_below begins]
  cases heading : (below options.nested around spec).heading? with
  | none => simp
  | some next =>
    have further := (heading?_below begins).mp heading
    have counted : 0 < (through options.nested specs (around ++ [next])).length :=
      List.length_pos_of_mem (mem_through.mpr ⟨listed, further⟩)
    simp only [filter_heading?_levelAt, List.length_map, Option.some.injEq]
    constructor
    · intro owned
      split at owned
      · cases owned
      · rename_i enough
        obtain rfl := Option.some.inj owned
        refine ⟨rfl, by simp, ?_⟩
        split <;> grind
    · rintro ⟨rfl, -, enough⟩
      rw [if_neg]
      rintro ⟨alone, few⟩
      rw [if_pos alone] at enough
      omega

/-- A group takes in the leaves that run through it. -/
theorem membersOf_levelAt (grouped : IsGrouped options specs (around ++ [label])) :
    membersOf options.ungroupSingle (levelAt options.nested specs around) label =
      (through options.nested specs (around ++ [label])).map (below options.nested around) := by
  rw [← filter_heading?_levelAt, membersOf]
  apply List.filter_congr
  intro placing listed
  obtain ⟨spec, run, rfl⟩ := List.mem_map.mp listed
  obtain ⟨present, begins⟩ := mem_through.mp run
  simp only [owner?_levelAt begins present, heading?_below begins, grouped, and_true]

/-- The level below a group is the level at its place. -/
theorem descend_membersOf_levelAt (grouped : IsGrouped options specs (around ++ [label])) :
    (membersOf options.ungroupSingle (levelAt options.nested specs around) label).map descend =
      levelAt options.nested specs (around ++ [label]) := by
  rw [membersOf_levelAt grouped, List.map_map, levelAt]
  exact List.map_congr_left (fun spec _ => descend_below)

/-- The groups of a level are the grouped places one label further down. -/
theorem mem_groupLabels_levelAt :
    label ∈ groupLabels options.ungroupSingle (levelAt options.nested specs around) ↔
      IsGrouped options specs (around ++ [label]) := by
  rw [mem_groupLabels]
  constructor
  · rintro ⟨placing, listed, owned⟩
    obtain ⟨spec, run, rfl⟩ := List.mem_map.mp listed
    obtain ⟨present, begins⟩ := mem_through.mp run
    exact ((owner?_levelAt begins present).mp owned).2
  · intro grouped
    obtain ⟨first, rest, run⟩ := exists_through grouped
    obtain ⟨present, further⟩ := mem_through.mp (run ▸ List.mem_cons_self : first ∈ _)
    have begins := (List.prefix_append around [label]).trans further
    exact ⟨_, List.mem_map_of_mem (mem_through.mpr ⟨present, begins⟩),
      (owner?_levelAt begins present).mpr ⟨further, grouped⟩⟩

/-- The leaves that no group of a level takes in are at home at the place of the level. -/
theorem looseLeaves_levelAt (grouped : around = [] ∨ IsGrouped options specs around) :
    (looseLeaves options.ungroupSingle (levelAt options.nested specs around)).map Placing.leaf =
      specs.filter (fun spec => homeOf options specs spec = around) := by
  rw [looseLeaves, map_filter_levelAt]
  apply List.filter_congr
  intro spec listed
  by_cases begins : around <+: spec.way options.nested
  · rw [decide_eq_true begins, Bool.true_and, Bool.eq_iff_iff, decide_eq_true_eq,
      homeOf_eq_iff begins grouped, Option.isNone_iff_eq_none, Option.eq_none_iff_forall_ne_some]
    simp only [ne_eq, owner?_levelAt begins listed, not_and]
  · have elsewhere : homeOf options specs spec ≠ around := by
      rintro rfl
      exact begins homeOf_begins
    simp [begins, elsewhere]

/-- A group of a level is made from the segment that the place there has. -/
theorem segment_membersOf_levelAt (grouped : IsGrouped options specs (around ++ [label])) :
    (membersOf options.ungroupSingle (levelAt options.nested specs around) label).head?.bind
        (fun first => first.rest.head?) =
      segmentOf? options.nested specs (around ++ [label]) := by
  rw [membersOf_levelAt grouped, segmentOf?, List.head?_map, Option.bind_map]
  congr 1
  funext first
  simp [below]

end Placing

/-- A way that runs through a place has a segment with the label of the place there. -/
theorem exists_segment_on_way (further : around ++ [label] <+: spec.way nested) :
    ∃ segment, (cutPath nested spec.path)[around.length]? = some segment ∧ segment.label = label := by
  have heading := (Placing.heading?_below ((List.prefix_append around [label]).trans further)).mpr further
  rw [Placing.heading?, Placing.below, List.head?_drop] at heading
  exact Option.map_eq_some_iff.mp heading

/-- The first leaf that runs through a place has there a segment with the label of the place. -/
theorem segmentOf?_of_through {first : LeafSpec} {rest : List LeafSpec}
    (run : through nested specs (around ++ [label]) = first :: rest) :
    ∃ segment, segmentOf? nested specs (around ++ [label]) = some segment ∧ segment.label = label := by
  obtain ⟨_, further⟩ := mem_through.mp (run ▸ List.mem_cons_self : first ∈ _)
  obtain ⟨segment, found, named⟩ := exists_segment_on_way further
  refine ⟨segment, ?_, named⟩
  rw [← found, segmentOf?, run, List.length_append, List.length_singleton, Nat.add_sub_cancel]
  rfl

/-- A group is made from a segment with the group's label. -/
theorem exists_segmentOf? (grouped : IsGrouped options specs (around ++ [label])) :
    ∃ segment, segmentOf? options.nested specs (around ++ [label]) = some segment ∧
      segment.label = label := by
  obtain ⟨first, rest, run⟩ := exists_through grouped
  exact segmentOf?_of_through run

/-- The segment of a place has the label of the place. -/
theorem label_of_segmentOf? {segment : Segment}
    (found : segmentOf? nested specs (around ++ [label]) = some segment) : segment.label = label := by
  cases run : through nested specs (around ++ [label]) with
  | nil => simp [segmentOf?, run] at found
  | cons first rest =>
    obtain ⟨same, also, named⟩ := segmentOf?_of_through run
    exact Option.some.inj (found.symm.trans also) ▸ named

/-- What is on the used part of a path is on the path. -/
theorem getElem?_of_cutPath {path : List Segment} {index : Nat} {segment : Segment}
    (found : (cutPath nested path)[index]? = some segment) : path[index]? = some segment := by
  rw [cutPath] at found
  split at found
  · exact found
  · rw [List.getElem?_take] at found
    split at found
    · exact found
    · cases found

/-- The segment of a place is the one that a leaf of the input has there on its path. -/
theorem exists_spec_of_segmentOf? {segment : Segment}
    (found : segmentOf? nested specs (around ++ [label]) = some segment) :
    ∃ first ∈ specs, first.path[around.length]? = some segment := by
  obtain ⟨first, runs, here⟩ := Option.bind_eq_some_iff.mp found
  obtain ⟨given, _⟩ := mem_through.mp (List.mem_of_head? runs)
  rw [List.length_append, List.length_singleton, Nat.add_sub_cancel] at here
  exact ⟨first, given, getElem?_of_cutPath here⟩

end DependencyDiagram
