import DependencyDiagram.Proofs.Grouping.Dissolving
import DependencyDiagram.Proofs.Outcomes

/-!
# Carrying out a draft

The groups and leaves of a draft, in the order in which they are carried out, are those of the plan.
A draft is carried out level by level, with the node of a group at hand while its level is carried
out. A plan is carried out entry by entry, and an entry finds the group that it goes into by labels.
Both attach the same nodes in the same order, and they fail together. For while a level is carried
out, only places below its own are opened, so that the labels of the level's place lead to the node
of its group before and after.

So a hierarchy is built by carrying out the plan of its leaves.
-/

namespace DependencyDiagram

namespace Draft

open Placing

variable {specs : List LeafSpec} {around : List String} {depth : Nat} {ungroupSingle : Bool}

/-- The groups and leaves of a draft with the labels around them, in the order in which they are carried
out. Groups stand before the leaves of their level and each group before what is inside it. A draft that
was dissolved keeps its groups in ascending order of their labels, which is the order of a plan. -/
def entries (specs : List LeafSpec) : List String → Draft specs.length → List PlanEntry
  | around, leaves standing => standing.map (fun leaf => .leaf around (specs.get leaf))
  | around, group segment inside others =>
    .group around segment :: (entries specs (around ++ [segment.label]) inside ++
      entries specs around others)

/-- The entries of a level with given groups and leaves. -/
theorem entries_withGroups {labels : List String} {segment : String → Segment}
    {inside : String → Draft specs.length} {standing : List (Fin specs.length)} :
    (withGroups labels segment inside standing).entries specs around =
      labels.flatMap (fun label => .group around (segment label) ::
        (inside label).entries specs (around ++ [(segment label).label])) ++
        standing.map (fun leaf => .leaf around (specs.get leaf)) := by
  induction labels with
  | nil => rfl
  | cons label rest inductionHypothesis =>
    change PlanEntry.group around (segment label) ::
      ((inside label).entries specs (around ++ [(segment label).label]) ++
        (withGroups rest segment inside standing).entries specs around) = _
    rw [inductionHypothesis, List.flatMap_cons, List.cons_append, List.cons_append, List.append_assoc]

/-- The entries of a draft that is read off some leaves are those of the plan for these leaves. -/
theorem entries_within (placings : List (Placing (Fin specs.length))) :
    (within ungroupSingle depth placings).entries specs around =
      planWithin ungroupSingle depth around (placings.map (rename specs.get)) := by
  induction depth generalizing around placings with
  | zero =>
    rw [within, entries, planWithin, List.map_map, List.map_map]
    rfl
  | succ depth inductionHypothesis =>
    rw [within, entries_withGroups, planWithin, groupLabels_rename, looseLeaves_rename, List.map_map,
      List.map_map]
    congr 1
    apply List.flatMap_congr
    intro label listed
    obtain ⟨segment, found, same, named⟩ := exists_segmentFor listed
    have foundToo : (membersOf ungroupSingle (placings.map (rename specs.get)) label).head?.bind
        (fun first => first.rest.head?) = some segment := by
      rw [membersOf_rename, List.head?_map, Option.bind_map]
      exact found
    simp only [foundToo]
    rw [same, inductionHypothesis, named, membersOf_rename, List.map_map, List.map_map]
    rfl

/-- A hierarchy's draft has the entries of the plan. -/
theorem entries_draftOf (nested ungroupSingle : Bool) (specs : List LeafSpec) :
    (draftOf nested ungroupSingle specs).entries specs [] = planOf nested ungroupSingle specs := by
  have renamed : (inputLevel nested specs).map (rename specs.get) =
      specs.map (fun spec => ⟨spec, cutPath nested spec.path⟩) := by
    rw [inputLevel, List.map_map]
    conv_rhs => rw [← List.map_get_finRange specs, List.map_map]
    rfl
  have short : Short (deepestPath (specs.map (fun spec => Placing.mk spec (cutPath nested spec.path))))
      (inputLevel nested specs) := by
    intro placing listed
    have among := List.mem_map_of_mem (f := rename specs.get) listed
    rw [renamed] at among
    exact length_le_deepestPath among
  rw [draftOf_eq_within short, entries_within, renamed, planOf]

end Draft

/-- What the carrying out of a draft and that of a plan have come to is the same, where the plan was
begun with some places known and has opened only places below a given one. Failing together means failing
alike, with the same message. Where both succeed they have the same tree, the same names of leaves and
the same mint; only the plan keeps its places, and those it has opened since lie strictly below the given
one, so the place itself still leads to the same node. -/
inductive Agrees (place : List String) (known : List (List String × Nat)) :
    Except Failure (BuiltTree × Mint) → Except Failure Construction → Prop where
  | failed (failure : Failure) : Agrees place known (.error failure) (.error failure)
  | built (tree : Tree) (leafs : Table String Nat) (mint : Mint) (opened : List (List String × Nat))
      (below : ∀ entry ∈ opened, place <+: entry.1 ∧ place ≠ entry.1) :
      Agrees place known (.ok (⟨tree, leafs⟩, mint)) (.ok ⟨tree, opened ++ known, leafs, mint⟩)

namespace Agrees

variable {place : List String} {known : List (List String × Nat)}
  {outcome : Except Failure (BuiltTree × Mint)} {result : Except Failure Construction}

/-- What opens places below a place that was opened itself has opened places below the place around
it. -/
theorem outside {label : String} {position : Nat}
    (agrees : Agrees (place ++ [label]) ((place ++ [label], position) :: known) outcome result) :
    Agrees place known outcome result := by
  cases agrees with
  | failed failure => exact .failed failure
  | built tree leafs mint opened below =>
    rw [List.append_cons]
    refine .built tree leafs mint _ (fun entry listed => ?_)
    have inside : place ++ [label] <+: entry.1 := by
      rcases List.mem_append.mp listed with before | own
      · exact (below entry before).1
      · exact List.mem_singleton.mp own ▸ List.prefix_rfl
    refine ⟨(List.prefix_append place [label]).trans inside, ?_⟩
    rintro same
    have longer := inside.length_le
    rw [← same, List.length_append, List.length_singleton] at longer
    omega

/-- What agrees so far and agrees from there on agrees as a whole. -/
theorem andThen {draftNext : BuiltTree × Mint → Except Failure (BuiltTree × Mint)}
    {planNext : Construction → Except Failure Construction} (agrees : Agrees place known outcome result)
    (next : ∀ tree leafs mint opened, (∀ entry ∈ opened, place <+: entry.1 ∧ place ≠ entry.1) →
      Agrees place (opened ++ known) (draftNext (⟨tree, leafs⟩, mint))
        (planNext ⟨tree, opened ++ known, leafs, mint⟩)) :
    Agrees place known (outcome >>= draftNext) (result >>= planNext) := by
  cases agrees with
  | failed failure => exact .failed failure
  | built tree leafs mint opened below =>
    change Agrees place known (draftNext (⟨tree, leafs⟩, mint))
      (planNext ⟨tree, opened ++ known, leafs, mint⟩)
    generalize draftNext _ = draftOutcome, planNext _ = planOutcome, next tree leafs mint opened below = more
    cases more with
    | failed failure => exact .failed failure
    | built tree leafs mint further belowToo =>
      rw [← List.append_assoc]
      refine .built tree leafs mint _ (fun entry listed => ?_)
      exact (List.mem_append.mp listed).elim (belowToo entry) (below entry)

end Agrees

namespace Construction

variable {construction : Construction} {around : List String} {parent : Nat}

/-- Places that are opened below another do not hide it. -/
theorem placeOf_append {opened : List (List String × Nat)} {tree : Tree} {leafs : Table String Nat}
    {mint : Mint} (below : ∀ entry ∈ opened, around ≠ entry.1) :
    placeOf ⟨tree, opened ++ construction.places, leafs, mint⟩ around = construction.placeOf around := by
  have none : opened.find? (fun place => place.1 = around) = none := by
    rw [List.find?_eq_none]
    exact fun entry listed same => below entry listed (of_decide_eq_true same).symm
  rw [placeOf, placeOf, List.find?_append, none, Option.none_or]

/-- Carrying out an entry for a leaf attaches the leaf below the group of its place. -/
theorem perform_leaf (stands : construction.placeOf around = parent) (spec : LeafSpec) :
    construction.perform (.leaf around spec) =
      ((⟨construction.tree, construction.leafs⟩ : BuiltTree).addLeaf parent spec).map (fun built =>
        ⟨built.tree, construction.places, built.leafs, construction.mint⟩) := by
  rw [← stands, perform, BuiltTree.addLeaf]
  cases construction.tree.attach (construction.placeOf around) spec.id spec.label .leaf <;> rfl

/-- Leaves that stand on one level are attached below its group. -/
theorem agrees_leaves {specs : List LeafSpec} (stands : construction.placeOf around = parent)
    (standing : List (Fin specs.length)) :
    Agrees around construction.places
      ((Draft.leaves standing).materialize specs parent
        (⟨construction.tree, construction.leafs⟩, construction.mint))
      (((Draft.leaves standing).entries specs around).foldlM perform construction) := by
  induction standing generalizing construction with
  | nil => exact .built _ _ _ [] (fun _ listed => nomatch listed)
  | cons leaf rest inductionHypothesis =>
    rw [Draft.entries, List.map_cons, List.foldlM_cons, perform_leaf stands, Draft.materialize,
      List.foldlM_cons]
    cases (⟨construction.tree, construction.leafs⟩ : BuiltTree).addLeaf parent (specs.get leaf) with
    | error failure => exact .failed failure
    | ok built =>
      exact @inductionHypothesis
        ⟨built.tree, construction.places, built.leafs, construction.mint⟩ stands

/-- A level of a draft is carried out as its entries are, where the labels of its place lead to its
group. -/
theorem agrees_materialize (construction : Construction) {specs : List LeafSpec}
    (draft : Draft specs.length) (stands : construction.placeOf around = parent) :
    Agrees around construction.places
      (draft.materialize specs parent (⟨construction.tree, construction.leafs⟩, construction.mint))
      ((draft.entries specs around).foldlM perform construction) := by
  induction draft generalizing construction around parent with
  | leaves standing => exact agrees_leaves stands standing
  | group segment inside others insideHypothesis othersHypothesis =>
    rw [Draft.entries, List.foldlM_cons, Draft.materialize, perform, stands]
    simp only [List.foldlM_append]
    cases attached : construction.tree.attach parent (construction.mint.identify segment).1 segment.label
      (.group segment.shortens) with
    | error failure => exact .failed failure
    | ok tree =>
      -- the group that was just opened is found first by the entries inside it
      have opened : placeOf ⟨tree, (around ++ [segment.label], construction.tree.size) ::
          construction.places, construction.leafs, (construction.mint.identify segment).2⟩
          (around ++ [segment.label]) = construction.tree.size := by
        simp [placeOf]
      refine (insideHypothesis _ opened).outside.andThen ?_
      intro tree leafs mint further below
      exact othersHypothesis _ ((placeOf_append (fun entry listed => (below entry listed).2)).trans stands)

end Construction

/-- A hierarchy is built by carrying out the plan of its leaves, entry after entry. The recursion over
the draft adds the same nodes, with the same identifiers and in the same order, as the run over the plan,
and it fails where the run fails. All that is proved about constructions reaches the hierarchy through
this equation. -/
theorem buildHierarchy_eq (specs : List LeafSpec) (options : HierarchyOptions) (mint : Mint) :
    buildHierarchy specs options mint =
      match firstRepeated? [] (specs.map LeafSpec.name) with
      | some name => .error ((Failure.duplicateLeafName name).during "hierarchy::build")
      | none => do
        let construction ← (planOf options.nested options.ungroupSingle specs).foldlM
          Construction.perform (Construction.begin mint)
        return (⟨construction.tree, construction.leafs⟩, construction.mint) := by
  rw [buildHierarchy]
  cases firstRepeated? [] (specs.map LeafSpec.name) with
  | some name => rfl
  | none =>
    dsimp only
    have agrees : Agrees [] [([], Tree.root)]
        ((draftOf options.nested options.ungroupSingle specs).materialize specs Tree.root
          (.single mint.group.1, mint.group.2))
        ((planOf options.nested options.ungroupSingle specs).foldlM Construction.perform
          (Construction.begin mint)) := by
      rw [← Draft.entries_draftOf]
      exact Construction.agrees_materialize (Construction.begin mint) _ rfl
    generalize (planOf options.nested options.ungroupSingle specs).foldlM Construction.perform
      (Construction.begin mint) = result at agrees ⊢
    generalize Draft.materialize _ _ _ _ = outcome at agrees ⊢
    cases agrees <;> rfl

end DependencyDiagram
