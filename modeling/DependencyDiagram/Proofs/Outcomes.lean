import Mathlib.Data.List.Forall2

/-!
# Chains and lists of outcomes

An outcome is a value or a failure. A chain of two steps has a value exactly when both steps
have one, and fails exactly when the first fails or the second fails on the value of the
first. The same step taken over a list fails exactly when it fails on some member; otherwise
its results correspond to the members one by one.
-/

namespace DependencyDiagram.Outcome

universe u v w
variable {ε : Type u} {α β : Type v} {γ : Type w}

/-- A chain goes on with the value of its first step. -/
theorem bind_of_ok {outcome : Except ε α} {next : α → Except ε β} {value : α}
    (first : outcome = .ok value) : (outcome >>= next) = next value := by
  rw [first]
  rfl

/-- A chain has a value exactly when both of its steps have one. -/
theorem bind_eq_ok_iff {outcome : Except ε α} {next : α → Except ε β} {result : β} :
    (outcome >>= next) = .ok result ↔ ∃ value, outcome = .ok value ∧ next value = .ok result := by
  cases outcome <;> simp [bind, Except.bind]

/-- A chain fails exactly where one of its steps does. -/
theorem bind_fails_iff {outcome : Except ε α} {next : α → Except ε β} :
    (∃ failure, (outcome >>= next) = .error failure) ↔
      (∃ failure, outcome = .error failure) ∨
        ∃ value, outcome = .ok value ∧ ∃ failure, next value = .error failure := by
  cases outcome <;> simp [bind, Except.bind]

/-- A chain fails with what the first of its steps that fails does. -/
theorem bind_eq_error_iff {outcome : Except ε α} {next : α → Except ε β} {failure : ε} :
    (outcome >>= next) = .error failure ↔
      outcome = .error failure ∨ ∃ value, outcome = .ok value ∧ next value = .error failure := by
  cases outcome <;> simp [bind, Except.bind]

/-- What is made of an outcome's value is a value exactly when the outcome has one. -/
theorem map_eq_ok_iff {outcome : Except ε α} {change : α → γ} {result : γ} :
    outcome.map change = .ok result ↔ ∃ value, outcome = .ok value ∧ change value = result := by
  cases outcome <;> simp [Except.map]

/-- What is made of an outcome's value fails exactly as the outcome does. -/
theorem map_eq_error_iff {outcome : Except ε α} {change : α → γ} {failure : ε} :
    outcome.map change = .error failure ↔ outcome = .error failure := by
  cases outcome <;> simp [Except.map]

/-- An outcome fails exactly when it has no value. -/
theorem fails_iff_no_value {outcome : Except ε γ} :
    (∃ failure, outcome = .error failure) ↔ ¬ ∃ value, outcome = .ok value := by
  cases outcome <;> simp

/-- The value of an outcome is that of the option it leaves. -/
theorem toOption_eq_some_iff {outcome : Except ε γ} {value : γ} :
    outcome.toOption = some value ↔ outcome = .ok value := by
  cases outcome <;> simp [Except.toOption]

/-- A step over a list has a value exactly when its results correspond to the members. -/
theorem mapM_eq_ok_iff {items : List γ} {step : γ → Except ε β} {results : List β} :
    items.mapM step = .ok results ↔
      List.Forall₂ (fun item result => step item = .ok result) items results := by
  induction items generalizing results with
  | nil =>
    rw [List.mapM_nil, List.forall₂_nil_left_iff]
    change Except.ok [] = Except.ok results ↔ results = []
    rw [Except.ok.injEq, eq_comm]
  | cons item rest inductionHypothesis =>
    rw [List.mapM_cons, bind_eq_ok_iff, List.forall₂_cons_left_iff]
    constructor
    · rintro ⟨result, first, chained⟩
      obtain ⟨further, later, joined⟩ := bind_eq_ok_iff.mp chained
      have same : result :: further = results := Except.ok.inj joined
      exact ⟨result, further, first, inductionHypothesis.mp later, same.symm⟩
    · rintro ⟨result, further, first, later, rfl⟩
      exact ⟨result, first, bind_eq_ok_iff.mpr ⟨further, inductionHypothesis.mpr later, rfl⟩⟩

/-- A step over a list fails exactly when it fails on some member. -/
theorem mapM_fails_iff {items : List γ} {step : γ → Except ε β} :
    (∃ failure, items.mapM step = .error failure) ↔
      ∃ item ∈ items, ∃ failure, step item = .error failure := by
  induction items with
  | nil => simp [pure, Except.pure]
  | cons item rest inductionHypothesis =>
    rw [List.mapM_cons, bind_fails_iff, List.exists_mem_cons_iff]
    constructor
    · rintro (here | ⟨result, _, chained⟩)
      · exact Or.inl here
      · rcases bind_fails_iff.mp chained with later | ⟨further, _, _, impossible⟩
        · exact Or.inr (inductionHypothesis.mp later)
        · cases impossible
    · rintro (here | later)
      · exact Or.inl here
      · cases first : step item with
        | error failure => exact Or.inl ⟨failure, rfl⟩
        | ok result =>
          exact Or.inr ⟨result, rfl, bind_fails_iff.mpr (Or.inl (inductionHypothesis.mpr later))⟩

/-- A step over a list fails with what it does on some member. -/
theorem exists_of_mapM_eq_error {items : List γ} {step : γ → Except ε β} {failure : ε}
    (failed : items.mapM step = .error failure) : ∃ item ∈ items, step item = .error failure := by
  induction items with
  | nil => cases failed
  | cons item rest inductionHypothesis =>
    rw [List.mapM_cons] at failed
    rcases bind_eq_error_iff.mp failed with here | ⟨result, _, further⟩
    · exact ⟨item, List.mem_cons_self, here⟩
    · rcases bind_eq_error_iff.mp further with later | ⟨_, _, impossible⟩
      · obtain ⟨other, listed, there⟩ := inductionHypothesis later
        exact ⟨other, List.mem_cons_of_mem item listed, there⟩
      · cases impossible

/-- A step that fails on no member of a list has a value on the list. -/
theorem mapM_succeeds {items : List γ} {step : γ → Except ε β}
    (each : ∀ item ∈ items, ∃ result, step item = .ok result) :
    ∃ results, items.mapM step = .ok results := by
  by_contra fails
  obtain ⟨item, listed, failed⟩ := mapM_fails_iff.mp (fails_iff_no_value.mpr fails)
  exact fails_iff_no_value.mp failed (each item listed)

/-- A step taken over a part of a list has that part of the results, where the results tell which
members the part has. -/
theorem mapM_filter {items : List γ} {step : γ → Except ε β} {results : List β} {keep : γ → Bool}
    {keepResult : β → Bool} (ran : items.mapM step = .ok results)
    (agree : ∀ item ∈ items, ∀ result, step item = .ok result → keep item = keepResult result) :
    (items.filter keep).mapM step = .ok (results.filter keepResult) := by
  rw [mapM_eq_ok_iff] at ran ⊢
  induction ran with
  | nil => exact List.Forall₂.nil
  | @cons item result rest further here _ inductionHypothesis =>
    have same := agree item List.mem_cons_self result here
    have later := inductionHypothesis
      (fun other listed => agree other (List.mem_cons_of_mem item listed))
    rw [List.filter_cons, List.filter_cons, ← same]
    split
    · exact List.Forall₂.cons here later
    · exact later

/-- What holds of no members and the start, and is kept when a run takes its next member, holds of
all members and the end of the run. -/
theorem foldlM_along (holds : List γ → β → Prop) {items : List γ} {step : β → γ → Except ε β}
    {start last : β}
    (kept : ∀ done item rest state next, items = done ++ item :: rest → holds done state →
      step state item = .ok next → holds (done ++ [item]) next)
    (begins : holds [] start) (ran : items.foldlM step start = .ok last) : holds items last := by
  -- the members taken so far are generalised, for the run goes on from any of them
  suffices further : ∀ rest done state, items = done ++ rest → holds done state →
      rest.foldlM step state = .ok last → holds items last from further items [] start rfl begins ran
  intro rest
  induction rest with
  | nil =>
    rintro done state rfl held finished
    obtain rfl : state = last := Except.ok.inj finished
    rwa [List.append_nil]
  | cons item rest inductionHypothesis =>
    intro done state whole held running
    rw [List.foldlM_cons] at running
    obtain ⟨next, stepped, remaining⟩ := bind_eq_ok_iff.mp running
    refine inductionHypothesis (done ++ [item]) next (by simp [whole]) ?_ remaining
    exact kept done item rest state next whole held stepped

/-- A run that never gets stuck comes to an end: what holds of no members and the start, and lets the
run take its next member and holds again, lets it take all of them. -/
theorem foldlM_succeeds (holds : List γ → β → Prop) {items : List γ} {step : β → γ → Except ε β}
    {start : β}
    (goes : ∀ done item rest state, items = done ++ item :: rest → holds done state →
      ∃ next, step state item = .ok next ∧ holds (done ++ [item]) next)
    (begins : holds [] start) : ∃ last, items.foldlM step start = .ok last := by
  suffices further : ∀ rest done state, items = done ++ rest → holds done state →
      ∃ last, rest.foldlM step state = .ok last from further items [] start rfl begins
  intro rest
  induction rest with
  | nil => exact fun _ state _ _ => ⟨state, rfl⟩
  | cons item rest inductionHypothesis =>
    intro done state whole held
    obtain ⟨next, stepped, kept⟩ := goes done item rest state whole held
    obtain ⟨last, ran⟩ := inductionHypothesis (done ++ [item]) next (by simp [whole]) kept
    exact ⟨last, by rw [List.foldlM_cons]; exact bind_eq_ok_iff.mpr ⟨next, stepped, ran⟩⟩

/-- A run fails with what its step does on some member. -/
theorem exists_of_foldlM_eq_error {items : List γ} {step : β → γ → Except ε β} {start : β} {failure : ε}
    (failed : items.foldlM step start = .error failure) :
    ∃ state, ∃ item ∈ items, step state item = .error failure := by
  induction items generalizing start with
  | nil => cases failed
  | cons item rest inductionHypothesis =>
    rw [List.foldlM_cons] at failed
    rcases bind_eq_error_iff.mp failed with here | ⟨next, _, later⟩
    · exact ⟨start, item, List.mem_cons_self, here⟩
    · obtain ⟨state, other, listed, there⟩ := inductionHypothesis later
      exact ⟨state, other, List.mem_cons_of_mem item listed, there⟩

/-- A run that changes its state by the result of a step for each member takes the step over the whole
list and makes all changes at the end. -/
theorem foldlM_eq_map_mapM {items : List γ} {step : γ → Except ε β} (change : α → β → α) (start : α) :
    items.foldlM (fun state item => do return change state (← step item)) start =
      (items.mapM step).map (fun results => results.foldl change start) := by
  induction items generalizing start with
  | nil => rfl
  | cons item rest inductionHypothesis =>
    rw [List.foldlM_cons, List.mapM_cons]
    cases step item with
    | error failure => rfl
    | ok result =>
      change rest.foldlM _ (change start result) = _
      rw [inductionHypothesis]
      cases rest.mapM step <;> rfl

/-- In corresponding lists every member on the right has one on the left. -/
theorem exists_of_mem_right {α β : Type u} {items : List α} {results : List β}
    {relation : α → β → Prop} (related : List.Forall₂ relation items results) {result : β}
    (listed : result ∈ results) : ∃ item ∈ items, relation item result := by
  induction related with
  | nil => cases listed
  | cons here _ inductionHypothesis =>
    rcases List.mem_cons.mp listed with rfl | later
    · exact ⟨_, List.mem_cons_self, here⟩
    · obtain ⟨item, present, there⟩ := inductionHypothesis later
      exact ⟨item, List.mem_cons_of_mem _ present, there⟩

/-- In corresponding lists every member on the left has one on the right. -/
theorem exists_of_mem_left {α β : Type u} {items : List α} {results : List β}
    {relation : α → β → Prop} (related : List.Forall₂ relation items results) {item : α}
    (listed : item ∈ items) : ∃ result ∈ results, relation item result :=
  exists_of_mem_right related.flip listed

/-- In corresponding lists the first member that is looked for on the right corresponds to the first
one on the left. -/
theorem exists_find?_of_forall₂ {α β : Type u} {items : List α} {results : List β}
    {relation : α → β → Prop} {wanted : α → Bool} {wantedResult : β → Bool}
    (related : List.Forall₂ relation items results)
    (agree : ∀ item result, relation item result → wanted item = wantedResult result) {result : β}
    (found : results.find? wantedResult = some result) :
    ∃ item, items.find? wanted = some item ∧ relation item result := by
  induction related with
  | nil => cases found
  | @cons item first rest further here _ inductionHypothesis =>
    rw [List.find?_cons, ← agree item first here] at found
    rw [List.find?_cons]
    split at found
    · obtain rfl := Option.some.inj found
      exact ⟨item, rfl, here⟩
    · exact inductionHypothesis found

/-- A property of the results is theirs alone when it is the members' alone. -/
theorem nodup_map_of_forall₂ {α β : Type u} {items : List α} {results : List β}
    {relation : α → β → Prop} {fromResult : β → γ} (related : List.Forall₂ relation items results)
    (distinct : items.Nodup)
    (alone : ∀ item other result further, relation item result → relation other further →
      fromResult result = fromResult further → item = other) : (results.map fromResult).Nodup := by
  induction related with
  | nil => exact List.nodup_nil
  | @cons item result rest further here later inductionHypothesis =>
    obtain ⟨new, apart⟩ := List.nodup_cons.mp distinct
    refine List.nodup_cons.mpr ⟨fun repeated => new ?_, inductionHypothesis apart⟩
    obtain ⟨again, listed, same⟩ := List.mem_map.mp repeated
    obtain ⟨other, present, there⟩ := exists_of_mem_right later listed
    exact alone item other result again here there same.symm ▸ present

/-- Two lists that correspond one by one yield the same where their members do. -/
theorem filterMap_congr_of_forall₂ {α β : Type u} {items : List α} {results : List β}
    {relation : α → β → Prop} {fromItem : α → Option γ} {fromResult : β → Option γ}
    (related : List.Forall₂ relation items results)
    (agree : ∀ item result, relation item result → fromItem item = fromResult result) :
    items.filterMap fromItem = results.filterMap fromResult := by
  induction related with
  | nil => rfl
  | cons here _ inductionHypothesis =>
    rw [List.filterMap_cons, List.filterMap_cons, agree _ _ here, inductionHypothesis]

end DependencyDiagram.Outcome
