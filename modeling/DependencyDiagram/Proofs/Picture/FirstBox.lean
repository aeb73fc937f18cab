import DependencyDiagram.Proofs.Picture.Connected

/-!
# The first box inside a frame

Where an edge must end on a box, the first box inside a frame stands for the frame. In terms of the
tree this is the first position that the drawing of the group meets and that is not expanded. A
frame inside a frame may well have the same first box: it does exactly when the first box of the
outer one lies at or below the inner one.
-/

namespace DependencyDiagram

/-- Of two lists that correspond, the first members with corresponding properties correspond. -/
theorem find?_of_forall₂ {α β : Type} {R : α → β → Prop} {first : α → Bool} {second : β → Bool}
    (agree : ∀ left right, R left right → first left = second right) {lefts : List α}
    {rights : List β} (each : List.Forall₂ R lefts rights) :
    (lefts.find? first = none ∧ rights.find? second = none) ∨
      ∃ left right, lefts.find? first = some left ∧ rights.find? second = some right ∧
        R left right := by
  induction each with
  | nil => exact Or.inl ⟨rfl, rfl⟩
  | @cons left right lefts rights here _ inductionHypothesis =>
    rw [List.find?_cons, List.find?_cons, agree left right here]
    cases second right with
    | true => exact Or.inr ⟨left, right, rfl, rfl, here⟩
    | false => exact inductionHypothesis

/-- What comes first in a list without repetitions comes first in every part that has it. -/
theorem find?_of_sublist {α : Type} {part whole : List α} {test : α → Bool} {found : α}
    (within : part.Sublist whole) (distinct : whole.Nodup) (first : whole.find? test = some found)
    (listed : found ∈ part) : part.find? test = some found := by
  induction within with
  | slnil => cases listed
  | @cons part whole head within inductionHypothesis =>
    obtain ⟨fresh, distinct⟩ := List.nodup_cons.mp distinct
    rw [List.find?_cons] at first
    split at first
    · obtain rfl := Option.some.inj first
      exact absurd (within.subset listed) fresh
    · exact inductionHypothesis distinct first listed
  | @cons_cons part whole head within inductionHypothesis =>
    rw [List.find?_cons] at first ⊢
    split at first
    · exact first
    · rename_i fails
      refine inductionHypothesis (List.nodup_cons.mp distinct).2 first ?_
      rcases List.mem_cons.mp listed with rfl | later
      · exact absurd (fails.symm.trans (List.find?_some first)) Bool.false_ne_true
      · exact later

namespace VisibleGraph

variable {graph : VisibleGraph} {options : ViewOptions} {styles : Styles} {image : Image}

/-- The first box that the drawing of a position meets. It is the first in the order in which the drawing
meets positions, hence the first in the order of the tree. -/
def firstBox? (graph : VisibleGraph) (position : Nat) : Option Nat :=
  (graph.shownFrom position).find? (fun place => !graph.isExpanded place)

/-- A node lies inside a group below the root, and at or above the first box inside the group. This is
how an inner frame comes to be attached to by edges that were meant for an outer one. -/
structure HasFirstBox (graph : VisibleGraph) (group position : Nat) : Prop where
  inner : group ≠ Tree.root
  above : graph.tree.Above group position
  leads : ∃ box, graph.firstBox? group = some box ∧ graph.tree.AtOrAbove position box

/-- What depicts a position is a frame exactly when the position is expanded. -/
theorem isCluster_of_depicts {position : Nat} {drawn : ImageNode}
    (depicts : graph.Depicts options styles position drawn) :
    graph.isExpanded position = drawn.isCluster := by
  obtain ⟨node, present, _, _, form⟩ := depicts
  cases drawn with
  | leaf box =>
    have leaf : node.isLeaf = true := form.1
    have below := Tree.ne_root_of_leaf present leaf
    simp [isExpanded, Tree.isOpenGroup, present, leaf, below, ImageNode.isCluster]
  | group box => exact form.2.1
  | cluster id label children => exact form.2.1

/-- The drawing of a position meets everything that the drawing of a position it meets does, in the
same order. -/
theorem shownFrom_sublist_shownFrom {upper lower : Nat} (met : lower ∈ graph.shownFrom upper) :
    (graph.shownFrom lower).Sublist (graph.shownFrom upper) := by
  induction upper using graph.tree.downward_induction with
  | step upper inductionHypothesis =>
    have whole := graph.shownFrom_eq upper
    rw [whole] at met
    split at met
    · rename_i visible
      rw [if_pos visible] at whole
      rcases List.mem_cons.mp met with rfl | further
      · exact List.Sublist.refl _
      · split at further
        · rename_i expanded
          obtain ⟨child, listed, here⟩ := List.mem_flatMap.mp further
          rw [if_pos expanded] at whole
          rw [whole, List.flatMap_def]
          exact ((inductionHypothesis child listed here).trans
            (List.sublist_flatten_of_mem (List.mem_map_of_mem listed))).cons upper
        · cases further
    · cases met

/-- What is drawn is met by the drawing of everything drawn above it. -/
theorem mem_shownFrom_of_above {upper lower : Nat} (below : graph.tree.AtOrAbove upper lower)
    (drawn : lower ∈ graph.shown) : lower ∈ graph.shownFrom upper := by
  obtain ⟨_, visible, exposed⟩ := mem_shown.mp drawn
  refine mem_shownFrom.mpr ⟨below, visible, fun between _ above => ?_⟩
  exact (isExpanded_of_above above).mpr
    (Tree.outermostCollapsed?_eq_none_iff.mp exposed between above)

/-- What the drawing of a drawn position meets is drawn. -/
theorem mem_shown_of_mem_shownFrom {upper position : Nat} (drawn : upper ∈ graph.shown)
    (met : position ∈ graph.shownFrom upper) : position ∈ graph.shown := by
  obtain ⟨inner, reached⟩ := mem_shown_iff_mem_shownFrom.mp drawn
  refine mem_shown_iff_mem_shownFrom.mpr ⟨?_, (shownFrom_sublist_shownFrom reached).subset met⟩
  rintro rfl
  exact inner (Nat.le_zero.mp (Tree.le_of_atOrAbove (mem_shownFrom.mp met).1))

/-- The first box inside a drawn position is a drawn box at or below it. -/
theorem firstBox?_spec {position box : Nat} (drawn : position ∈ graph.shown)
    (first : graph.firstBox? position = some box) :
    box ∈ graph.shown ∧ graph.tree.AtOrAbove position box := by
  have met := List.mem_of_find?_eq_some first
  exact ⟨mem_shown_of_mem_shownFrom drawn met, (mem_shownFrom.mp met).1⟩

/-- A drawn position inside a drawn group has the same first box exactly when that box lies at or
below it. -/
theorem firstBox?_eq_iff {upper lower box : Nat} (above : graph.tree.Above upper lower)
    (drawn : lower ∈ graph.shown) (first : graph.firstBox? upper = some box) :
    graph.firstBox? lower = some box ↔ graph.tree.AtOrAbove lower box := by
  constructor
  · exact fun same => (firstBox?_spec drawn same).2
  · intro below
    have met := mem_shownFrom_of_above above.to_reflTransGen drawn
    have distinct : (graph.shownFrom upper).Nodup :=
      (graph.shownFrom_sublist upper).nodup (graph.tree.preorderFrom_nodup upper)
    refine find?_of_sublist (shownFrom_sublist_shownFrom met) distinct first ?_
    obtain ⟨_, visible, open_⟩ := mem_shownFrom.mp (List.mem_of_find?_eq_some first)
    exact mem_shownFrom.mpr ⟨below, visible,
      fun between under => open_ between (above.to_reflTransGen.trans under)⟩

/-- Two drawn positions have the same first box exactly when one of them lies inside the other and
has the other's first box. -/
theorem same_firstBox_iff {first second : Nat} (left : first ∈ graph.shown)
    (right : second ∈ graph.shown) (apart : first ≠ second) :
    (∃ box, graph.firstBox? first = some box ∧ graph.firstBox? second = some box) ↔
      graph.HasFirstBox first second ∨ graph.HasFirstBox second first := by
  have inner {position : Nat} (drawn : position ∈ graph.shown) : position ≠ Tree.root :=
    (mem_shown.mp drawn).1
  constructor
  · rintro ⟨box, fromFirst, fromSecond⟩
    have belowFirst := (firstBox?_spec left fromFirst).2
    have belowSecond := (firstBox?_spec right fromSecond).2
    rcases Tree.atOrAbove_or_atOrAbove belowFirst belowSecond with upper | upper
    · rcases Relation.reflTransGen_iff_eq_or_transGen.mp upper with same | above
      · exact absurd same.symm apart
      · exact Or.inl ⟨inner left, above, box, fromFirst, belowSecond⟩
    · rcases Relation.reflTransGen_iff_eq_or_transGen.mp upper with same | above
      · exact absurd same apart
      · exact Or.inr ⟨inner right, above, box, fromSecond, belowFirst⟩
  · rintro (⟨_, above, box, first, below⟩ | ⟨_, above, box, first, below⟩)
    · exact ⟨box, first, (firstBox?_eq_iff above right first).mpr below⟩
    · exact ⟨box, (firstBox?_eq_iff above left first).mpr below, first⟩

/-- Hidden positions meet nothing. -/
theorem flatMap_shownFrom_visible (keys : List Nat) :
    (keys.filter graph.isVisible).flatMap graph.shownFrom = keys.flatMap graph.shownFrom := by
  rw [← flatMap_visible, List.flatMap_assoc]
  apply List.flatMap_congr
  intro key _
  cases visible : graph.isVisible key with
  | true => simp [visible]
  | false => simp [visible, shownFrom_eq graph key]

section Depicted

variable (depicted : List.Forall₂ (graph.Depicts options styles) graph.shown image.allNodes)
include depicted

/-- Nodes of the image that carry the identifiers of drawn positions depict them. -/
theorem depicts_of_ids {keys : List Nat} {nodes : List ImageNode}
    (drawn : ∀ key ∈ keys, key ∈ graph.shown) (inside : ∀ node ∈ nodes, node ∈ image.allNodes)
    (same : nodes.map ImageNode.id = keys.flatMap graph.tree.idsAt) :
    List.Forall₂ (fun key node => graph.Depicts options styles key node ∧ node ∈ image.allNodes)
      keys nodes := by
  induction keys generalizing nodes with
  | nil =>
    obtain rfl := List.map_eq_nil_iff.mp same
    exact .nil
  | cons key keys inductionHypothesis =>
    obtain ⟨shown, listed, depicts⟩ :=
      Outcome.exists_of_mem_left depicted (drawn key List.mem_cons_self)
    rw [List.flatMap_cons, idsAt_of_depicts depicts, List.singleton_append] at same
    obtain ⟨node, rest, rfl, named, further⟩ := List.map_eq_cons_iff.mp same
    have held := inside node List.mem_cons_self
    obtain rfl := eq_of_mem_allNodes depicted held listed named
    refine .cons ⟨depicts, held⟩ (inductionHypothesis ?_ ?_ further)
    · exact fun other later => drawn other (List.mem_cons_of_mem key later)
    · exact fun other later => inside other (List.mem_cons_of_mem node later)

/-- The nodes inside a node of the image depict, one by one, what the drawing of its position meets. The
induction is on the position, from the tree's leaves upwards. A box has nothing inside it, and the
children of a cluster are the drawn children of its position, in their order. -/
theorem depicted_below {position : Nat} {drawn : ImageNode} (shown : position ∈ graph.shown)
    (listed : drawn ∈ image.allNodes) (depicts : graph.Depicts options styles position drawn) :
    List.Forall₂ (graph.Depicts options styles) (graph.shownFrom position) drawn.flatten := by
  induction position using graph.tree.downward_induction generalizing drawn with
  | step position inductionHypothesis =>
    have visible : graph.isVisible position = true := (mem_shown.mp shown).2.1
    have form := isCluster_of_depicts depicts
    rw [shownFrom_eq, if_pos visible]
    cases drawn with
    | leaf box =>
      rw [form]
      exact .cons depicts .nil
    | group box =>
      rw [form]
      exact .cons depicts .nil
    | cluster id label children =>
      have ⟨_, _, _, _, _, expanded, held⟩ := depicts
      rw [if_pos expanded, ImageNode.flatten, ImageNode.flattenAll_eq, ← flatMap_shownFrom_visible]
      have shownBelow : ∀ child ∈ graph.visibleChildren position,
          child ∈ graph.tree.children position ∧ child ∈ graph.shown := by
        intro child among
        obtain ⟨below, seen⟩ := List.mem_filter.mp among
        exact ⟨below, (child_mem_shown_iff below (Or.inr ⟨shown, expanded⟩)).mpr seen⟩
      have inside : ∀ child ∈ children, child ∈ image.allNodes :=
        fun child among => ImageNode.child_mem_flattenAll among _ listed
      have each := (List.forall₂_and_left _ _).mpr ⟨shownBelow,
        depicts_of_ids depicted (fun child among => (shownBelow child among).2) inside held⟩
      exact .cons depicts (List.rel_flatMap each (fun child node here =>
        inductionHypothesis child here.1.1 here.1.2 here.2.2 here.2.1))

end Depicted

end VisibleGraph

end DependencyDiagram
