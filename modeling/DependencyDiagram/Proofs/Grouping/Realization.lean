import DependencyDiagram.Grouping.Hierarchy
import DependencyDiagram.Proofs.Grouping.Order
import DependencyDiagram.Proofs.Tree.Growth
import DependencyDiagram.Proofs.Outcomes

/-!
# Carrying out a plan

Carrying out a plan adds a node for every entry, in the order of the plan, below the group that
opened the place the entry goes to. So the labels on the way to the node are the place and the
entry's own label. Groups are identified by their segments where these give an identifier, and by
the mint otherwise; leaves are identified by themselves and found by their names.
-/

namespace DependencyDiagram

open DependencyDiagram.Tree

/-- The identifier of a group: the segment's own, or else one that the mint had not handed out. Which
number is minted depends on everything carried out before. All that is ever needed of it is that it was
not handed out earlier. -/
structure Segment.Names (segment : Segment) (mint : Mint) (id : NodeId) : Prop where
  given : ∀ own, segment.id = some own → id = own
  minted : segment.id = none → ∃ key, id = .artificial .group key ∧ mint.next.value ≤ key.value

namespace PlanEntry

/-- The label of the node that an entry adds. -/
def label : PlanEntry → String
  | group _ segment => segment.label
  | leaf _ spec => spec.label

/-- What an entry adds: a group with the promise of its segment, or a leaf. -/
def kind : PlanEntry → NodeKind
  | group _ segment => .group segment.shortens
  | leaf _ _ => .leaf

/-- The identifier of the node that an entry adds. -/
def Names (mint : Mint) (id : NodeId) : PlanEntry → Prop
  | group _ segment => segment.Names mint id
  | leaf _ spec => id = spec.id

/-- The names of leaves with the name of an entry's leaf, if it is one, at its position. -/
def enter (leafs : Table String Nat) (position : Nat) : PlanEntry → Table String Nat
  | group _ _ => leafs
  | leaf _ spec => leafs.put spec.name position

/-- A group opens the place with its own label behind the place it goes to. -/
theorem of_opens? {entry : PlanEntry} {labels : List String}
    (opened : entry.opens? = some labels) : labels = entry.around ++ [entry.label] := by
  cases entry with
  | group around segment => exact (Option.some.inj opened).symm
  | leaf around spec => cases opened

end PlanEntry

/-- The node at a position is the one that an entry adds. The parent is described by the labels on the
way to it, so nothing is said about positions but the one of the node itself. -/
def Tree.Carries (tree : Tree) (mint : Mint) (entry : PlanEntry) (position : Nat) : Prop :=
  ∃ id parent, tree.node? position = some ⟨id, entry.label, some parent, entry.kind⟩ ∧
    tree.labelPath parent = entry.around ∧ entry.Names mint id

/-- The labels on the way to the node of an entry are its place and its own label. -/
theorem Tree.labelPath_of_carries {tree : Tree} {mint : Mint} {entry : PlanEntry} {position : Nat}
    (carried : tree.Carries mint entry position) :
    tree.labelPath position = entry.around ++ [entry.label] := by
  obtain ⟨id, parent, present, place, _⟩ := carried
  have above : tree.parent? position = some parent := parent?_of_node? present
  rw [labelPath_eq, above, Tree.label, present]
  exact congrArg (· ++ [entry.label]) place

namespace Construction

/-- A construction that began with a mint has carried out exactly the given entries: their nodes stand
behind the root in the same order, the places they open lead to their groups, and the names of their
leaves to those leaves. This is the invariant of carrying out a plan. It is preserved by every entry
whose place is known, and at the end it says of the whole tree what the plan says of the input. -/
structure Realizes (construction : Construction) (mint : Mint) (entries : List PlanEntry) : Prop where
  size : construction.tree.size = entries.length + 1
  carried : ∀ index entry, entries[index]? = some entry →
    construction.tree.Carries mint entry (index + 1)
  opened : ∀ labels ∈ [] :: entries.filterMap PlanEntry.opens?,
    labels ∈ construction.places.map Prod.fst
  placed : ∀ place ∈ construction.places, place.2 < construction.tree.size ∧
    construction.tree.labelPath place.2 = place.1
  held : ∀ around spec, PlanEntry.leaf around spec ∈ entries →
    ∃ position, construction.leafs.get? spec.name = some position
  found : ∀ name position, construction.leafs.get? name = some position →
    ∃ index around spec, position = index + 1 ∧ entries[index]? = some (.leaf around spec) ∧
      spec.name = name
  minted : mint.next.value ≤ construction.mint.next.value

variable {construction next : Construction} {entry : PlanEntry} {mint : Mint}
  {entries : List PlanEntry}

/-- A mint hands out numbers that ascend. -/
theorem le_next_group (mint : Mint) : mint.next.value ≤ mint.group.2.next.value := by
  rw [Mint.group, Mint.issue, Token.next]
  split <;> grind

/-- A group is identified by its segment, and the mint does not go back. -/
theorem names_identify (mint : Mint) (segment : Segment) :
    segment.Names mint (mint.identify segment).1 ∧
      mint.next.value ≤ (mint.identify segment).2.next.value := by
  cases own : segment.id with
  | some id =>
    have identified : mint.identify segment = (id, mint) := by simp [Mint.identify, own]
    rw [identified]
    refine ⟨⟨fun other same => ?_, fun none => ?_⟩, Nat.le_refl _⟩
    · exact Option.some.inj (own.symm.trans same)
    · cases own.symm.trans none
  | none =>
    have identified : mint.identify segment = mint.group := by simp [Mint.identify, own]
    rw [identified]
    refine ⟨⟨fun other same => ?_, fun _ => ?_⟩, le_next_group mint⟩
    · cases own.symm.trans same
    · exact ⟨mint.next, rfl, Nat.le_refl _⟩

/-- What carrying out one entry does. -/
theorem step_of_perform (performed : construction.perform entry = .ok next) :
    ∃ id, construction.tree.attach (construction.placeOf entry.around) id entry.label entry.kind =
        .ok next.tree ∧
      entry.Names construction.mint id ∧
      construction.mint.next.value ≤ next.mint.next.value ∧
      next.places = (entry.opens?.map (fun labels => (labels, construction.tree.size))).toList ++
        construction.places ∧
      next.leafs = entry.enter construction.leafs construction.tree.size := by
  cases entry with
  | group around segment =>
    obtain ⟨tree, attached, returned⟩ := Outcome.bind_eq_ok_iff.mp performed
    obtain rfl := Except.ok.inj returned
    obtain ⟨named, ascends⟩ := names_identify construction.mint segment
    exact ⟨_, attached, named, ascends, rfl, rfl⟩
  | leaf around spec =>
    obtain ⟨tree, attached, returned⟩ := Outcome.bind_eq_ok_iff.mp performed
    obtain rfl := Except.ok.inj returned
    exact ⟨_, attached, rfl, Nat.le_refl _, by simp [PlanEntry.opens?], rfl⟩

/-- What a mint could still hand out later it could hand out before. -/
theorem names_mono {later : Mint} {id : NodeId} (further : mint.next.value ≤ later.next.value)
    (named : entry.Names later id) : entry.Names mint id := by
  cases entry with
  | leaf around spec => exact named
  | group around segment =>
    refine ⟨named.given, fun none => ?_⟩
    obtain ⟨key, same, bound⟩ := named.minted none
    exact ⟨key, same, Nat.le_trans further bound⟩

/-- Attaching keeps the nodes that entries have added. -/
theorem carries_of_attach {tree grown : Tree} {parent : Nat} {id : NodeId} {label : String}
    {kind : NodeKind} (attached : tree.attach parent id label kind = .ok grown) {position : Nat}
    (carried : tree.Carries mint entry position) : grown.Carries mint entry position := by
  obtain ⟨own, upper, present, place, named⟩ := carried
  have inside := lt_size_of_node? present
  have above : tree.parent? position = some upper := parent?_of_node? present
  refine ⟨own, upper, (node?_of_attach attached inside).trans present, ?_, named⟩
  rw [labelPath_of_attach attached (Nat.lt_trans (parent_lt above) inside), place]

/-- A place that was opened leads to its group. -/
theorem labelPath_placeOf (realized : construction.Realizes mint entries) {labels : List String}
    (known : labels ∈ [] :: entries.filterMap PlanEntry.opens?) :
    construction.tree.labelPath (construction.placeOf labels) = labels := by
  obtain ⟨place, listed, rfl⟩ := List.mem_map.mp (realized.opened labels known)
  obtain ⟨first, found⟩ : ∃ first,
      construction.places.find? (fun other => other.1 = place.1) = some first := by
    rw [← Option.isSome_iff_exists, List.find?_isSome]
    exact ⟨place, listed, decide_eq_true rfl⟩
  have same : first.1 = place.1 := by simpa using List.find?_some found
  rw [placeOf, found, ← same]
  exact (realized.placed first (List.mem_of_find?_eq_some found)).2

/-- A construction that has begun has carried out nothing. -/
theorem realizes_begin (mint : Mint) : (begin mint).Realizes mint [] where
  size := rfl
  carried := nofun
  opened := by simp [begin]
  placed := by
    intro place listed
    rw [List.mem_singleton.mp listed]
    exact ⟨Nat.zero_lt_one, rfl⟩
  held := nofun
  found := nofun
  minted := le_next_group mint

/-- An entry of a longer list is one of those before the last or the last. -/
theorem getElem?_concat_cases {last : PlanEntry} {index : Nat}
    (listed : (entries ++ [last])[index]? = some entry) :
    entries[index]? = some entry ∨ index = entries.length ∧ entry = last := by
  rcases Nat.lt_trichotomy index entries.length with before | rfl | behind
  · rw [List.getElem?_append_left before] at listed
    exact Or.inl listed
  · rw [List.getElem?_concat_length] at listed
    exact Or.inr ⟨rfl, (Option.some.inj listed).symm⟩
  · rw [List.getElem?_eq_none (by simp; omega)] at listed
    cases listed

/-- An entry stays where it is when others follow. -/
theorem getElem?_concat_of_some {last : PlanEntry} {index : Nat}
    (listed : entries[index]? = some entry) : (entries ++ [last])[index]? = some entry :=
  (List.getElem?_append_left (List.getElem?_eq_some_iff.mp listed).1).trans listed

/-- A node that an entry adds behind the others is the entry's. -/
theorem carries_of_perform (realized : construction.Realizes mint entries) {tree : Tree} {id : NodeId}
    (known : entry.around ∈ [] :: entries.filterMap PlanEntry.opens?)
    (attached : construction.tree.attach (construction.placeOf entry.around) id entry.label entry.kind =
      .ok tree)
    (named : entry.Names construction.mint id) :
    tree.Carries mint entry construction.tree.size := by
  refine ⟨id, _, node?_size_of_attach attached, ?_, names_mono realized.minted named⟩
  rw [labelPath_of_attach attached (lt_size_of_attach attached), labelPath_placeOf realized known]

/-- The leaves of the entries are found by their names after a further entry. -/
theorem held_of_enter (realized : construction.Realizes mint entries) (position : Nat)
    {around : List String} {spec : LeafSpec} (listed : .leaf around spec ∈ entries ++ [entry]) :
    ∃ held, (entry.enter construction.leafs position).get? spec.name = some held := by
  rw [List.mem_append, List.mem_singleton] at listed
  rcases listed with old | rfl
  · obtain ⟨held, found⟩ := realized.held around spec old
    cases entry with
    | group _ _ => exact ⟨held, found⟩
    | leaf _ other =>
      rw [PlanEntry.enter, Table.get?_put]
      split
      · exact ⟨_, rfl⟩
      · exact ⟨held, found⟩
  · exact ⟨position, by rw [PlanEntry.enter, Table.get?_put, if_pos rfl]⟩

/-- A name leads to the leaf of an entry after a further entry, whose leaf is behind the others. -/
theorem found_of_enter (realized : construction.Realizes mint entries) {name : String} {position : Nat}
    (found : (entry.enter construction.leafs construction.tree.size).get? name = some position) :
    ∃ index around spec, position = index + 1 ∧
      (entries ++ [entry])[index]? = some (.leaf around spec) ∧ spec.name = name := by
  have earlier (before : construction.leafs.get? name = some position) :
      ∃ index around spec, position = index + 1 ∧
        (entries ++ [entry])[index]? = some (.leaf around spec) ∧ spec.name = name := by
    obtain ⟨index, around, spec, same, listed, called⟩ := realized.found name position before
    exact ⟨index, around, spec, same, getElem?_concat_of_some listed, called⟩
  cases entry with
  | group _ _ => exact earlier found
  | leaf around spec =>
    rw [PlanEntry.enter, Table.get?_put] at found
    split at found
    · rename_i called
      exact ⟨entries.length, around, spec, (Option.some.inj found).symm.trans realized.size,
        List.getElem?_concat_length, called⟩
    · exact earlier found

/-- A further entry is carried out where it goes to a place that is known. The new node is the last one,
and what was known of the others is kept by attaching it. -/
theorem realizes_of_perform (realized : construction.Realizes mint entries)
    (known : entry.around ∈ [] :: entries.filterMap PlanEntry.opens?)
    (performed : construction.perform entry = .ok next) : next.Realizes mint (entries ++ [entry]) := by
  obtain ⟨id, attached, named, ascends, places, leafs⟩ := step_of_perform performed
  have size := size_of_attach attached
  have last := realized.size
  have fresh := carries_of_perform realized known attached named
  exact {
    size := by rw [size, last, List.length_append, List.length_singleton]
    carried := by
      intro index other listed
      rcases getElem?_concat_cases listed with old | ⟨rfl, rfl⟩
      · exact carries_of_attach attached (realized.carried index other old)
      · exact last ▸ fresh
    opened := by
      intro labels listed
      rw [List.filterMap_append, ← List.cons_append, List.mem_append] at listed
      rw [places, List.map_append, List.mem_append]
      refine listed.symm.imp (fun new => ?_) (realized.opened labels)
      cases opened : entry.opens? <;> simp_all
    placed := by
      intro place listed
      rw [places, List.mem_append, Option.mem_toList, Option.map_eq_some_iff] at listed
      rcases listed with ⟨labels, opened, rfl⟩ | old
      · exact ⟨by omega, (labelPath_of_carries fresh).trans (PlanEntry.of_opens? opened).symm⟩
      · obtain ⟨inside, path⟩ := realized.placed place old
        exact ⟨by omega, (labelPath_of_attach attached inside).trans path⟩
    held := fun _ _ listed => leafs ▸ held_of_enter realized _ listed
    found := fun _ _ found => found_of_enter realized (leafs ▸ found)
    minted := Nat.le_trans realized.minted ascends }

/-- Carrying out a plan from its beginning realizes all of it, when every entry goes to a place that
an earlier one opens. -/
theorem realizes_of_run {plan : List PlanEntry} (grounded : Grounded [[]] plan)
    (ran : plan.foldlM perform (begin mint) = .ok construction) :
    construction.Realizes mint plan := by
  refine Outcome.foldlM_along (fun entries state => state.Realizes mint entries)
    (fun entries entry rest state next whole realized performed => ?_) (realizes_begin mint) ran
  rw [whole, grounded_append] at grounded
  exact realizes_of_perform realized grounded.2.1 performed

/-- Every position but the root's has an entry that added its node. -/
theorem Realizes.exists_entry (realized : construction.Realizes mint entries) {position : Nat}
    (inside : position < construction.tree.size) (below : position ≠ root) :
    ∃ index entry, position = index + 1 ∧ entries[index]? = some entry ∧
      construction.tree.Carries mint entry (index + 1) := by
  obtain ⟨index, rfl⟩ := Nat.exists_eq_succ_of_ne_zero below
  have within : index < entries.length := by
    have size := realized.size
    omega
  have listed : entries[index]? = some entries[index] := List.getElem?_eq_getElem within
  exact ⟨index, entries[index], rfl, listed, realized.carried index _ listed⟩

end Construction

end DependencyDiagram
