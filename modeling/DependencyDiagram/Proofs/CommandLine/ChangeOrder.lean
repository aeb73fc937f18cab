import DependencyDiagram.CommandLine.Run
import DependencyDiagram.Proofs.View.FilterOrder

/-!
# The order of a filter's changes

The changes that a run makes to the filter are listed, but their order does not matter. A group that is
expanded again stays expanded, and a leaf that is hidden again stays hidden. So lists that name the same
identifiers give filters that answer alike, in whatever order the identifiers come, however often, and
however their numbers are spelled. The view then shows the same, and nothing of a run depends on its
filter except through what the view shows: not the text, not the side table, and not a failure.
-/

namespace DependencyDiagram

/-- Two lists of texts are read as the same identifiers, in whatever order and however often, or they
are refused for the same failure. -/
inductive NamesAlike (left right : List String) : Prop where
  | read {first second : List NodeId} (here : left.mapM NodeId.decode = .ok first)
      (there : right.mapM NodeId.decode = .ok second) (same : ∀ id, id ∈ first ↔ id ∈ second)
  | refused {failure : Failure} (here : left.mapM NodeId.decode = .error failure)
      (there : right.mapM NodeId.decode = .error failure)

/-- Whether two lists are read as the same identifiers or refused alike is found by reading them. -/
instance (left right : List String) : Decidable (NamesAlike left right) :=
  match here : left.mapM NodeId.decode, there : right.mapM NodeId.decode with
  | .ok first, .ok second =>
    decidable_of_iff ((∀ id ∈ first, id ∈ second) ∧ ∀ id ∈ second, id ∈ first) ⟨
      fun same => .read here there (fun id => ⟨same.1 id, same.2 id⟩),
      fun alike => by
        cases alike with
        | read found foundOther same =>
          obtain rfl := Except.ok.inj (here.symm.trans found)
          obtain rfl := Except.ok.inj (there.symm.trans foundOther)
          exact ⟨fun id => (same id).mp, fun id => (same id).mpr⟩
        | refused found _ => cases here.symm.trans found⟩
  | .error failure, .error other =>
    decidable_of_iff (failure = other) ⟨
      fun same => .refused here (same ▸ there),
      fun alike => by
        cases alike with
        | read found _ _ => cases here.symm.trans found
        | refused found foundOther =>
          exact (Except.error.inj (here.symm.trans found)).trans
            (Except.error.inj (there.symm.trans foundOther)).symm⟩
  | .ok _, .error _ => isFalse fun alike => by
    cases alike with
    | read _ found _ => cases there.symm.trans found
    | refused found _ => cases here.symm.trans found
  | .error _, .ok _ => isFalse fun alike => by
    cases alike with
    | read found _ _ => cases here.symm.trans found
    | refused _ found => cases there.symm.trans found

/-- Two lists of changes expand the same groups, hide the same leaves, and say the same of edges that end
on expanded groups. Texts may differ where the identifiers that they denote do not. -/
structure FilterOptions.Alike (first second : FilterOptions) : Prop where
  expand : NamesAlike first.expand second.expand
  hide : NamesAlike first.hide second.hide
  parentEdges : first.parentEdges = second.parentEdges

namespace Filter

variable (filter : Filter) (ids : List NodeId)

/-- Showing or hiding several leaves changes the set of shown leaves, member by member. -/
theorem setLeavesVisible_eq (visible : Bool) :
    filter.setLeavesVisible ids visible =
      { filter with
        leafVisible := ids.foldl (fun set id => set.switch id visible) filter.leafVisible } := by
  rw [setLeavesVisible]
  induction ids generalizing filter with
  | nil => rfl
  | cons first rest inductionHypothesis =>
    rw [List.foldl_cons, inductionHypothesis]
    rfl

/-- Expanding or collapsing several groups changes the set of expanded groups, member by member. -/
theorem setGroupsExpanded_eq (expanded : Bool) :
    filter.setGroupsExpanded ids expanded =
      { filter with
        groupExpanded := ids.foldl (fun set id => set.switch id expanded) filter.groupExpanded } := by
  rw [setGroupsExpanded]
  induction ids generalizing filter with
  | nil => rfl
  | cons first rest inductionHypothesis =>
    rw [List.foldl_cons, inductionHypothesis]
    rfl

/-- The filter after groups were expanded and leaves were hidden. Groups are expanded before leaves are
hidden, but the two sets have nothing to do with each other. -/
def changed (expand hide : List NodeId) (parentEdges : Bool) : Filter :=
  { (filter.setGroupsExpanded expand true).setLeavesVisible hide false with parentEdges := parentEdges }

/-- Changes that name the same groups and the same leaves give filters that answer alike. -/
theorem changed_alike {expand expandOther hide hideOther : List NodeId}
    (sameGroups : ∀ id, id ∈ expand ↔ id ∈ expandOther) (sameLeaves : ∀ id, id ∈ hide ↔ id ∈ hideOther)
    (parentEdges : Bool) :
    (filter.changed expand hide parentEdges).Alike (filter.changed expandOther hideOther parentEdges) where
  leaves id := by
    simp only [changed, setLeavesVisible_eq, setGroupsExpanded_eq, showsLeaf,
      Collection.contains_switchAll, sameLeaves]
  groups id := by
    simp only [changed, setLeavesVisible_eq, setGroupsExpanded_eq, expandsGroup,
      Collection.contains_switchAll, sameGroups]
  parentEdges := rfl

end Filter

namespace FilterOptions

variable {first second : FilterOptions}

/-- Changes are read, those of groups before those of leaves, and then made. -/
theorem apply_eq (changes : FilterOptions) (filter : Filter) :
    changes.apply filter = (do
      let expand ← changes.expand.mapM NodeId.decode
      let hide ← changes.hide.mapM NodeId.decode
      return filter.changed expand hide changes.parentEdges) := by
  have expanding (start : Filter) : changes.expand.foldlM expandGroup start =
      (changes.expand.mapM NodeId.decode).map (start.setGroupsExpanded · true) :=
    Outcome.foldlM_eq_map_mapM (fun filter id => filter.setGroupExpanded id true) start
  have hidden (start : Filter) : changes.hide.foldlM hideLeaf start =
      (changes.hide.mapM NodeId.decode).map (start.setLeavesVisible · false) :=
    Outcome.foldlM_eq_map_mapM (fun filter id => filter.setLeafVisible id false) start
  rw [apply, expanding]
  cases changes.expand.mapM NodeId.decode with
  | error failure => rfl
  | ok expand =>
    change (changes.hide.foldlM hideLeaf (filter.setGroupsExpanded expand true) >>= _) = _
    rw [hidden]
    cases changes.hide.mapM NodeId.decode <;> rfl

/-- Changes that are alike fail in the same way, or give filters that answer alike. -/
theorem Alike.apply (alike : first.Alike second) (filter : Filter) :
    (∃ failure, first.apply filter = .error failure ∧ second.apply filter = .error failure) ∨
      ∃ left right, first.apply filter = .ok left ∧ second.apply filter = .ok right ∧
        left.Alike right := by
  rw [apply_eq, apply_eq, ← alike.parentEdges]
  cases alike.expand with
  | refused here there =>
    rw [here, there]
    exact Or.inl ⟨_, rfl, rfl⟩
  | read here there sameGroups =>
    rw [here, there]
    cases alike.hide with
    | refused hidden hiddenOther =>
      rw [hidden, hiddenOther]
      exact Or.inl ⟨_, rfl, rfl⟩
    | read hidden hiddenOther sameLeaves =>
      rw [hidden, hiddenOther]
      exact Or.inr ⟨_, _, rfl, rfl, filter.changed_alike sameGroups sameLeaves first.parentEdges⟩

end FilterOptions

namespace Run

variable {first second : FilterOptions}

/-- With changes that are alike a view shows the same, or fails in the same way. -/
theorem content_describe (alike : first.Alike second) (options : RunOptions) (data : ViewData) :
    (describe { options with filter := first } data).map ViewDescription.content =
      (describe { options with filter := second } data).map ViewDescription.content := by
  rw [describe, describe]
  dsimp only
  rw [← alike.parentEdges]
  cases prepare data (options.display.toViewOptions options.view first.parentEdges) with
  | error failure => rfl
  | ok source =>
    -- both filters start from the one that shows everything in the same tree
    change Except.map _ (first.apply _ >>= _) = Except.map _ (second.apply _ >>= _)
    rcases alike.apply (Filter.allVisible source.built.tree) with
      ⟨failure, here, there⟩ | ⟨left, right, here, there, answers⟩
    · rw [here, there]
    · rw [here, there]
      exact answers.content_assemble source

variable {m : Type → Type} [Monad m]

/-- Write the side table of a view, if a place is named for it, and answer with the text to show. This is
all of a run that comes after the view is known, so the filter enters it through the view alone. -/
def conclude (files : FileAccess m) (sideTable : Option String) (view : ViewDescription) :
    ExceptT Failure m String := do
  if let some path := sideTable then
    ExceptT.mk (files.write path (sideText view))
  return view.shownText

/-- Views that show the same conclude a run in the same way. -/
theorem conclude_congr {view other : ViewDescription} (same : view.content = other.content)
    (files : FileAccess m) (sideTable : Option String) :
    conclude files sideTable view = conclude files sideTable other := by
  have texts : view.shownText = other.shownText := by
    rw [ViewDescription.shownText, ViewDescription.shownText, same]
  have tables : sideText view = sideText other := by
    rw [sideText, sideText, ViewDescription.side?, ViewDescription.side?, same]
  cases sideTable <;> simp only [conclude, texts, tables]

/-- Outcomes with views that show the same are concluded in the same way, and so is a failure. -/
theorem conclude_outcome_congr [LawfulMonad m] {outcome other : Except Failure ViewDescription}
    (same : outcome.map ViewDescription.content = other.map ViewDescription.content)
    (files : FileAccess m) (sideTable : Option String) :
    (ExceptT.mk (pure outcome) >>= conclude files sideTable) =
      (ExceptT.mk (pure other) >>= conclude files sideTable) := by
  cases outcome with
  | error failure =>
    cases other with
    | error _ => rw [Except.error.inj same]
    | ok _ => cases same
  | ok view =>
    cases other with
    | error _ => cases same
    | ok another =>
      change (pure view >>= conclude files sideTable) = (pure another >>= conclude files sideTable)
      rw [pure_bind, pure_bind, conclude_congr (Except.ok.inj same)]

/-- A run loads its data, describes its view and concludes with it. -/
theorem perform_eq (explain : String → String) (files : FileAccess m) (options : RunOptions) :
    perform explain files options = (do
      let data ← loadData explain files options
      ExceptT.mk (pure (describe options data)) >>= conclude files options.sideTable) := rfl

/-- A run does not depend on the order in which groups to expand and leaves to hide are listed, nor on
how often they are. Whatever the documents, the view and the ways to draw it, and wherever the texts are
kept, the run answers with the same text or fails in the same way, and it writes the same side table. Two
runs are compared as computations, with all their effects. The files may be those of a computer, a table
of texts in memory, or anything else that can be read and written in a lawful way. -/
theorem changes_unordered [LawfulMonad m] (explain : String → String) (files : FileAccess m)
    (options : RunOptions) (alike : first.Alike second) :
    perform explain files { options with filter := first } =
      perform explain files { options with filter := second } := by
  have concluded (data : ViewData) := conclude_outcome_congr (content_describe alike options data) files
    options.sideTable
  rw [perform_eq, perform_eq]
  dsimp only
  exact congrArg (loadData explain files options >>= ·) (funext concluded)

namespace Sample

/-- A document without assemblies, and a graph of three nodes of which two are in a layer. -/
def directory : Directory := Directory.ofList [
  ("reflection", "\x7b\"version\":1\x7d".toUTF8),
  ("graph", "[[\"a\",null,\"g\",[\"c\"]],[\"b\",null,\"g\",[\"c\"]],[\"c\",null,null,[]]]".toUTF8)]

/-- A run that expands the layer and hides one of its nodes. -/
def options : RunOptions where
  input := "reflection"
  custom := some "graph"
  view := .custom
  display := .standard
  filter := ⟨["customGroup|layer|g", "method|A|+7"], ["customLeaf|b", "customLeaf|x"], false⟩
  sideTable := some "side"

/-- The same changes in another order, with one of them repeated and a number spelled differently. -/
def reordered : FilterOptions :=
  ⟨["method|A|7", "customGroup|layer|g", "method|A|007"], ["customLeaf|x", "customLeaf|b"], false⟩

end Sample

/-- The two lists of changes of the sample differ, but the run is the same, and it answers with a text. -/
theorem changes_unordered_in_sample :
    Sample.options.filter ≠ Sample.reordered ∧ Sample.options.filter.Alike Sample.reordered ∧
      perform (fun _ => "") Directory.access Sample.options =
        perform (fun _ => "") Directory.access { Sample.options with filter := Sample.reordered } ∧
      ((perform (fun _ => "") Directory.access Sample.options).run Sample.directory).1.toOption.isSome := by
  have alike : Sample.options.filter.Alike Sample.reordered :=
    ⟨by decide +kernel, by decide +kernel, rfl⟩
  exact ⟨by decide, alike, changes_unordered (fun _ => "") Directory.access Sample.options alike, by decide +kernel⟩

end Run

end DependencyDiagram
