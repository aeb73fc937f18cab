import DependencyDiagram.Store.Loader

/-!
# Loading is coherent

A store holds a document under a key if the text there is read as one of the present version, and it
lacks one if there is no text or one of another version. A text that cannot be read is neither. A
load calls the backend where a document is lacking and nowhere else, and what the backend produced is
put into the store only once it was read as a document. Calls are counted by the backend itself: it
answers with the same outcome every time and notes that it was called.

So in a run of loads and puts a place to which no text is put changes at most once, and only from
lacking a document to holding one. A document that is held is what every load gives, whatever happens
to the other places, until a text is put in its place.
-/

namespace DependencyDiagram

/-- What a load came to: how often the backend was called, the document, and the store. The number of
calls is not something that the loader reports. It is what the backend has noted when the load is over. -/
structure Loading where
  calls : Nat
  result : Except Failure Reflection
  store : Store

namespace Loader

/-- A backend that answers with an outcome and counts its calls. It is one particular backend for a
loader that works with any. The loader cannot see the number and so cannot depend on it. -/
def counting (outcome : Except Failure String) : StateM Nat (Except Failure String) := do
  modify (· + 1)
  return outcome

/-- What a load comes to with a backend that counts its calls. -/
def loading (explain : String → String) (store : Store) (key : String)
    (outcome : Except Failure String) : Loading :=
  let ((result, next), calls) := (load explain store key (counting outcome)).run 0
  ⟨calls, result, next⟩

end Loader

/-- A use that is made of a store: a document is loaded, or a text is put somewhere. A text may be put
into any table, under any key, and it may be the text of a document, of another version or of nothing at
all. -/
inductive StoreUse where
  | load (key : String) (outcome : Except Failure String)
  | put (table key text : String)

namespace Store

variable (explain : String → String)

/-- The store after it was used. -/
def afterUse (store : Store) : StoreUse → Store
  | .load key outcome => (Loader.loading explain store key outcome).store
  | .put table key text => store.put table key text

/-- The store after it was used again and again. -/
def afterUses (store : Store) (uses : List StoreUse) : Store := uses.foldl (afterUse explain) store

/-- A store is used first once and then for the rest. -/
theorem afterUses_cons (store : Store) (use : StoreUse) (rest : List StoreUse) :
    store.afterUses explain (use :: rest) = (store.afterUse explain use).afterUses explain rest := rfl

end Store

namespace Loader

variable {explain : String → String} {store : Store} {key : String} {document : Reflection}
  {failure : Failure}

/-- A document is held under a key. The text need not be the one that writing the document would give. It
suffices that it is read as the document. -/
def Holds (store : Store) (key : String) (document : Reflection) : Prop :=
  ∃ text, store.get? reflectedTable key = some text ∧ Reflection.content text = .ok (.current document)

/-- A document is lacking under a key: there is no text, or one of another version. A text of another
version is treated as none, because it can be derived again. A text that cannot be read is not, because
it may be a sign of damage. -/
def Lacks (store : Store) (key : String) : Prop :=
  store.get? reflectedTable key = none ∨
    ∃ text found, store.get? reflectedTable key = some text ∧ Reflection.content text = .ok (.stale found)

/-- The text under a key cannot be read. Every place holds a document, lacks one or is broken, and only
one of the three. -/
def Broken (explain : String → String) (store : Store) (key : String) (failure : Failure) : Prop :=
  ∃ text fault, store.get? reflectedTable key = some text ∧ Reflection.content text = .error fault ∧
    failure = Reflection.unreadable explain text fault

/-- Where there is a text, a document is lacking exactly if the text is of another version. -/
theorem lacks_iff_stale {text : String} (here : store.get? reflectedTable key = some text) :
    Lacks store key ↔ ∃ found, Reflection.content text = .ok (.stale found) := by
  constructor
  · rintro (none | ⟨other, found, there, stale⟩)
    · cases here.symm.trans none
    · obtain rfl := Option.some.inj (here.symm.trans there)
      exact ⟨found, stale⟩
  · rintro ⟨found, stale⟩
    exact Or.inr ⟨text, found, here, stale⟩

/-- Where a document is held it is not lacking. -/
theorem Holds.not_lacks (holds : Holds store key document) : ¬ Lacks store key := by
  obtain ⟨text, here, read⟩ := holds
  rw [lacks_iff_stale here, read]
  exact nofun

/-- Where the text cannot be read a document is not lacking. -/
theorem Broken.not_lacks (broken : Broken explain store key failure) : ¬ Lacks store key := by
  obtain ⟨text, fault, here, unread, _⟩ := broken
  rw [lacks_iff_stale here, unread]
  exact nofun

/-- One document at most is held under a key. -/
theorem Holds.unique {other : Reflection} (holds : Holds store key document)
    (also : Holds store key other) : document = other := by
  obtain ⟨text, here, read⟩ := holds
  obtain ⟨_, there, again⟩ := also
  obtain rfl := Option.some.inj (here.symm.trans there)
  exact ReflectionText.current.inj (Except.ok.inj (read.symm.trans again))

section

variable {m : Type → Type} [Monad m] (backend : m (Except Failure String))

/-- A document that is held is loaded without the backend. -/
theorem load_of_holds (holds : Holds store key document) :
    load explain store key backend = pure (.ok document, store) := by
  obtain ⟨text, here, read⟩ := holds
  rw [load, here]
  simp only [Reflection.parse, read]
  rfl

/-- A text that cannot be read is reported without the backend. -/
theorem load_of_broken (broken : Broken explain store key failure) :
    load explain store key backend = pure (.error failure, store) := by
  obtain ⟨text, fault, here, unread, rfl⟩ := broken
  rw [load, here]
  simp only [Reflection.parse, unread]
  rfl

/-- A document that is lacking is derived. -/
theorem load_of_lacks (lacks : Lacks store key) :
    load explain store key backend = derive explain store key backend := by
  rcases lacks with none | ⟨text, found, here, stale⟩
  · rw [load, none]
  · rw [load, here]
    simp only [Reflection.parse, stale]
    rfl

end

section

variable (outcome : Except Failure String)

/-- No call is counted where a document is held. -/
theorem loading_of_holds (holds : Holds store key document) :
    loading explain store key outcome = ⟨0, .ok document, store⟩ := by
  rw [loading, load_of_holds _ holds]
  rfl

/-- No call is counted where the text cannot be read. -/
theorem loading_of_broken (broken : Broken explain store key failure) :
    loading explain store key outcome = ⟨0, .error failure, store⟩ := by
  rw [loading, load_of_broken _ broken]
  rfl

/-- One call is counted where a document is lacking. -/
theorem loading_of_lacks (lacks : Lacks store key) : loading explain store key outcome =
    ⟨1, (keep explain store key outcome).1, (keep explain store key outcome).2⟩ := by
  rw [loading, load_of_lacks _ lacks]
  rfl

end

/-- Under every key a document is held, or the text cannot be read, or a document is lacking. -/
theorem held_or_broken_or_lacking (explain : String → String) (store : Store) (key : String) :
    (∃ document, Holds store key document) ∨ (∃ failure, Broken explain store key failure) ∨
      Lacks store key := by
  cases here : store.get? reflectedTable key with
  | none => exact Or.inr (Or.inr (Or.inl here))
  | some text =>
    cases read : Reflection.content text with
    | error fault => exact Or.inr (Or.inl ⟨_, text, fault, here, read, rfl⟩)
    | ok content =>
      cases content with
      | current document => exact Or.inl ⟨document, text, here, read⟩
      | stale found => exact Or.inr (Or.inr (Or.inr ⟨text, found, here, read⟩))

/-- What the backend produced is accepted exactly if it is read as a document. -/
theorem accept_eq_ok_iff {text : String} :
    accept explain key text = .ok document ↔ Reflection.content text = .ok (.current document) := by
  rw [accept, Reflection.parse]
  cases Reflection.content text with
  | error fault => constructor <;> (intro impossible; cases impossible)
  | ok content =>
    cases content with
    | current other => constructor <;> (intro same; cases same; rfl)
    | stale found => constructor <;> (intro impossible; cases impossible)

/-- What the backend produced is put into the store exactly if it is a document. -/
theorem keep_produced (explain : String → String) (store : Store) (key text : String) :
    keep explain store key (.ok text) = match accept explain key text with
    | .error failure => (.error failure, store)
    | .ok document => (.ok document, store.put reflectedTable key text) := rfl

/-- All that a load can come to. The cases go by what the place has and then by what the backend answers.
Where the backend is not called, its outcome is not mentioned. -/
inductive ComesTo (explain : String → String) (store : Store) (key : String)
    (outcome : Except Failure String) : Loading → Prop where
  /-- The document was there. -/
  | found {document : Reflection} (holds : Holds store key document) :
    ComesTo explain store key outcome ⟨0, .ok document, store⟩
  /-- A text was there that cannot be read. -/
  | broken {failure : Failure} (broken : Broken explain store key failure) :
    ComesTo explain store key outcome ⟨0, .error failure, store⟩
  /-- The backend failed, or what it produced is no document. -/
  | refused {failure : Failure} (lacks : Lacks store key)
    (reported : (∃ cause, outcome = .error cause ∧ failure = cause.during "loader::reflect") ∨
      ∃ text, outcome = .ok text ∧ accept explain key text = .error failure) :
    ComesTo explain store key outcome ⟨1, .error failure, store⟩
  /-- The backend produced a document. -/
  | derived {text : String} {document : Reflection} (lacks : Lacks store key)
    (produced : outcome = .ok text) (read : Reflection.content text = .ok (.current document)) :
    ComesTo explain store key outcome ⟨1, .ok document, store.put reflectedTable key text⟩

/-- A load comes to one of these. -/
theorem loading_comesTo (explain : String → String) (store : Store) (key : String)
    (outcome : Except Failure String) :
    ComesTo explain store key outcome (loading explain store key outcome) := by
  rcases held_or_broken_or_lacking explain store key with ⟨document, holds⟩ | ⟨failure, broken⟩ | lacks
  · rw [loading_of_holds outcome holds]
    exact .found holds
  · rw [loading_of_broken outcome broken]
    exact .broken broken
  · rw [loading_of_lacks outcome lacks]
    cases outcome with
    | error cause => exact .refused lacks (Or.inl ⟨cause, rfl, rfl⟩)
    | ok text =>
      cases accepted : accept explain key text with
      | ok document =>
        rw [keep_produced, accepted]
        exact .derived lacks rfl (accept_eq_ok_iff.mp accepted)
      | error failure =>
        rw [keep_produced, accepted]
        exact .refused lacks (Or.inr ⟨text, rfl, accepted⟩)

/-- A document is held where its text was put. -/
theorem holds_put {text : String} (read : Reflection.content text = .ok (.current document)) :
    Holds (store.put reflectedTable key text) key document :=
  ⟨text, by rw [Store.get?_put, if_pos rfl], read⟩

namespace ComesTo

variable {outcome : Except Failure String} {loading : Loading}

/-- The backend is called exactly where a document is lacking, and then once. -/
theorem calls_eq (came : ComesTo explain store key outcome loading) :
    (Lacks store key → loading.calls = 1) ∧ (¬ Lacks store key → loading.calls = 0) := by
  cases came with
  | found holds => exact ⟨fun lacks => absurd lacks holds.not_lacks, fun _ => rfl⟩
  | broken broken => exact ⟨fun lacks => absurd lacks broken.not_lacks, fun _ => rfl⟩
  | refused lacks reported => exact ⟨fun _ => rfl, fun held => absurd lacks held⟩
  | derived lacks produced read => exact ⟨fun _ => rfl, fun held => absurd lacks held⟩

/-- Where the backend is not called it makes no difference. -/
theorem loading_eq_of_uncalled (came : ComesTo explain store key outcome loading)
    (uncalled : loading.calls = 0) (other : Except Failure String) :
    Loader.loading explain store key other = loading := by
  cases came with
  | found holds => exact loading_of_holds other holds
  | broken broken => exact loading_of_broken other broken
  | refused lacks reported => cases uncalled
  | derived lacks produced read => cases uncalled

/-- A load gives the document that was held, or one that was lacking and that the backend produced. The
cases are the four ways in which a load can come out. A store cannot hold a document and lack it or hold
it broken, so in each case one of the two sides is excluded. -/
theorem result_eq_ok_iff (came : ComesTo explain store key outcome loading) :
    loading.result = .ok document ↔ Holds store key document ∨
      Lacks store key ∧ ∃ text, outcome = .ok text ∧ Reflection.content text = .ok (.current document) := by
  cases came with
  | found holds =>
    constructor
    · exact fun given => Or.inl (Except.ok.inj given ▸ holds)
    · rintro (also | ⟨lacks, _⟩)
      · rw [holds.unique also]
      · exact absurd lacks holds.not_lacks
  | broken broken =>
    refine ⟨nofun, ?_⟩
    rintro (⟨text, here, read⟩ | ⟨lacks, _⟩)
    · obtain ⟨_, _, there, unread, _⟩ := broken
      obtain rfl := Option.some.inj (here.symm.trans there)
      cases read.symm.trans unread
    · exact absurd lacks broken.not_lacks
  | refused lacks reported =>
    refine ⟨nofun, ?_⟩
    rintro (holds | ⟨_, text, rfl, read⟩)
    · exact absurd lacks holds.not_lacks
    · rcases reported with ⟨cause, ⟨⟩, _⟩ | ⟨_, ⟨⟩, refused⟩
      cases refused.symm.trans (accept_eq_ok_iff.mpr read)
  | derived lacks produced read =>
    constructor
    · exact fun given => Or.inr ⟨lacks, _, produced, Except.ok.inj given ▸ read⟩
    · rintro (holds | ⟨_, text, again, other⟩)
      · exact absurd lacks holds.not_lacks
      · obtain rfl := Except.ok.inj (produced.symm.trans again)
        rw [ReflectionText.current.inj (Except.ok.inj (read.symm.trans other))]

/-- A document that a load gives is held afterwards. -/
theorem holds_of_result (came : ComesTo explain store key outcome loading)
    (given : loading.result = .ok document) : Holds loading.store key document := by
  cases came with
  | found holds => exact Except.ok.inj given ▸ holds
  | broken broken => cases given
  | refused lacks reported => cases given
  | derived lacks produced read => exact Except.ok.inj given ▸ holds_put read

/-- A load that fails leaves the store as it was. -/
theorem store_of_failure (came : ComesTo explain store key outcome loading)
    (failed : loading.result = .error failure) : loading.store = store := by
  cases came with
  | found holds => rfl
  | broken broken => rfl
  | refused lacks reported => rfl
  | derived lacks produced read => cases failed

/-- A load leaves all other places alone. -/
theorem get?_elsewhere (came : ComesTo explain store key outcome loading) {table place : String}
    (elsewhere : (table, place) ≠ (reflectedTable, key)) :
    loading.store.get? table place = store.get? table place := by
  cases came with
  | found holds => rfl
  | broken broken => rfl
  | refused lacks reported => rfl
  | derived lacks produced read => rw [Store.get?_put, if_neg (Ne.symm elsewhere)]

end ComesTo

/-- What a use can do to a place to which it puts no text: nothing, or it loads a document that was
lacking there, and the place has the text that the backend produced. -/
theorem get?_afterUse {use : StoreUse} {table place : String}
    (noPut : ∀ text, use ≠ .put table place text) :
    (store.afterUse explain use).get? table place = store.get? table place ∨
      table = reflectedTable ∧ Lacks store place ∧ ∃ text document, use = .load place (.ok text) ∧
        Reflection.content text = .ok (.current document) ∧
        (store.afterUse explain use).get? table place = some text := by
  cases use with
  | put otherTable key text =>
    refine Or.inl ?_
    rw [Store.afterUse, Store.get?_put, if_neg]
    intro same
    obtain ⟨rfl, rfl⟩ := Prod.mk.inj same
    exact noPut text rfl
  | load key outcome =>
    have came := loading_comesTo explain store key outcome
    rw [Store.afterUse]
    generalize loading explain store key outcome = loading at came
    cases came with
    | found holds => exact Or.inl rfl
    | broken broken => exact Or.inl rfl
    | refused lacks reported => exact Or.inl rfl
    | @derived text document lacks produced read =>
      rw [Store.get?_put]
      by_cases here : (reflectedTable, key) = (table, place)
      · obtain ⟨rfl, rfl⟩ := Prod.mk.inj here
        exact Or.inr ⟨rfl, lacks, text, document, by rw [produced], read, if_pos rfl⟩
      · exact Or.inl (if_neg here)

/-- What a run can do to a place to which it puts no text: nothing, or one of its loads found that a
document was lacking there, and the place has the text that the backend of this load produced. -/
theorem get?_afterUses {uses : List StoreUse} {table place : String}
    (noPut : ∀ text, .put table place text ∉ uses) :
    (store.afterUses explain uses).get? table place = store.get? table place ∨
      table = reflectedTable ∧ Lacks store place ∧ ∃ text document, .load place (.ok text) ∈ uses ∧
        Reflection.content text = .ok (.current document) ∧
        (store.afterUses explain uses).get? table place = some text := by
  induction uses generalizing store with
  | nil => exact Or.inl rfl
  | cons use rest inductionHypothesis =>
    have first : ∀ text, use ≠ .put table place text :=
      fun text same => noPut text (same ▸ List.mem_cons_self)
    have further := @inductionHypothesis (store.afterUse explain use)
      (fun text listed => noPut text (List.mem_cons_of_mem use listed))
    rw [Store.afterUses_cons]
    rcases get?_afterUse first with same | ⟨rfl, lacks, text, document, loads, read, there⟩
    · rcases further with kept | ⟨rfl, lacks, text, document, listed, read, there⟩
      · exact Or.inl (kept.trans same)
      · rw [Lacks, same] at lacks
        exact Or.inr ⟨rfl, lacks, text, document, List.mem_cons_of_mem use listed, read, there⟩
    · -- from now on a document is held, so the rest of the run changes nothing
      have kept : ((store.afterUse explain use).afterUses explain rest).get? reflectedTable place = some text := by
        rcases further with kept | ⟨_, lacking, _⟩
        · rw [kept, there]
        · exact absurd lacking (Holds.not_lacks ⟨text, there, read⟩)
      exact Or.inr ⟨rfl, lacks, text, document, loads ▸ List.mem_cons_self, read, kept⟩

/-- A document that is held stays so until a text is put in its place. -/
theorem Holds.afterUses (holds : Holds store key document) {uses : List StoreUse}
    (noPut : ∀ text, .put reflectedTable key text ∉ uses) :
    Holds (store.afterUses explain uses) key document := by
  rcases get?_afterUses noPut with same | ⟨_, lacks, _⟩
  · rw [Holds, same]
    exact holds
  · exact absurd lacks holds.not_lacks

/-- However a store was used, a load calls the backend exactly where a document is lacking, and then
once. It gives the document that was held, or the one that was lacking and that the backend produced; the
document is held afterwards, and until a text is put in its place every load gives it without the
backend. A load that fails leaves the store as it was, and no load changes any other place. In the whole
run a place changes only if a text is put there, or if it is loaded, was lacking a document and now has
the text of one that a backend produced. The uses before the load are arbitrary, so the places may hold
anything. The uses after it are arbitrary but for the place itself, into which no text is put; they may
load it again and load and overwrite all others. -/
theorem loads_coherent (explain : String → String) (start : Store) (before : List StoreUse)
    (key : String) (outcome : Except Failure String) {store : Store} {here : Loading}
    (reached : store = start.afterUses explain before)
    (loaded : loading explain store key outcome = here) :
    ((Lacks store key → here.calls = 1) ∧ (¬ Lacks store key → here.calls = 0)) ∧
      (here.calls = 0 → ∀ other, loading explain store key other = here) ∧
      (∀ document, here.result = .ok document ↔ Holds store key document ∨ Lacks store key ∧
        ∃ text, outcome = .ok text ∧ Reflection.content text = .ok (.current document)) ∧
      (∀ document, here.result = .ok document → Holds here.store key document ∧
        ∀ after, (∀ text, .put reflectedTable key text ∉ after) → ∀ other,
          loading explain (here.store.afterUses explain after) key other =
            ⟨0, .ok document, here.store.afterUses explain after⟩) ∧
      (∀ failure, here.result = .error failure → here.store = store) ∧
      (∀ table place, (table, place) ≠ (reflectedTable, key) →
        here.store.get? table place = store.get? table place) ∧
      ∀ table place, (∀ text, .put table place text ∉ before) →
        store.get? table place = start.get? table place ∨
          table = reflectedTable ∧ Lacks start place ∧ ∃ text document,
            .load place (.ok text) ∈ before ∧ Reflection.content text = .ok (.current document) ∧
            store.get? table place = some text := by
  have came : ComesTo explain store key outcome here := loaded ▸ loading_comesTo explain store key outcome
  refine ⟨came.calls_eq, came.loading_eq_of_uncalled, fun document => came.result_eq_ok_iff,
    fun document given => ?_, fun failure => came.store_of_failure,
    fun table place => came.get?_elsewhere, fun table place noPut => reached ▸ get?_afterUses noPut⟩
  have holds := came.holds_of_result given
  exact ⟨holds, fun after noPut other => loading_of_holds other (holds.afterUses noPut)⟩

namespace Sample

/-- The text of the empty document. -/
def emptyText : String := Reflection.empty.toText

/-- The store has a text of another version for a solution, and a library was loaded into it. -/
def uses : List StoreUse :=
  [.put reflectedTable "solution" "\x7b\"version\":0\x7d", .load "library" (.ok emptyText)]

/-- Nothing is said of a text that holds no document. -/
def silent (_ : String) : String := ""

/-- The store after these uses. -/
def usedStore : Store := Store.empty.afterUses silent uses

/-- What loading the solution comes to. -/
def solution : Loading :=
  ⟨1, .ok Reflection.empty, usedStore.put reflectedTable "solution" emptyText⟩

/-- The solution is lacking a document. -/
theorem lacks_solution : Lacks usedStore "solution" := by
  have here : usedStore.get? reflectedTable "solution" = some "\x7b\"version\":0\x7d" := by
    decide +kernel
  exact (lacks_iff_stale here).mpr ⟨0, by decide +kernel⟩

/-- The solution is derived. -/
theorem loading_solution : loading silent usedStore "solution" (.ok emptyText) = solution := by
  have read : Reflection.content emptyText = .ok (.current Reflection.empty) := by decide +kernel
  rw [loading_of_lacks _ lacks_solution, keep_produced, accept_eq_ok_iff.mpr read, solution]

end Sample

/-- In the sample the solution is derived, and it is loaded again without the backend after a text that
cannot be read was put for the library. -/
theorem outdated_sample_derived_once :
    Sample.usedStore = Store.empty.afterUses Sample.silent Sample.uses ∧
      loading Sample.silent Sample.usedStore "solution" (.ok Sample.emptyText) = Sample.solution ∧
      loading Sample.silent (Sample.solution.store.put reflectedTable "library" "broken") "solution"
          (.ok "") =
        ⟨0, .ok Reflection.empty, Sample.solution.store.put reflectedTable "library" "broken"⟩ := by
  obtain ⟨_, _, _, given, _⟩ := loads_coherent Sample.silent Store.empty Sample.uses "solution"
    (.ok Sample.emptyText) rfl Sample.loading_solution
  have elsewhere : ∀ text, StoreUse.put reflectedTable "solution" text ∉
      [StoreUse.put reflectedTable "library" "broken"] := by
    simp
  exact ⟨rfl, Sample.loading_solution, (given Reflection.empty rfl).2 _ elsewhere (.ok "")⟩

end Loader

end DependencyDiagram
