import DependencyDiagram.Identity.NodeTable
import DependencyDiagram.Proofs.Identity.Codec
import DependencyDiagram.Proofs.Ordered.Contents
import Mathlib.Logic.Function.Basic

/-!
# Collections in storage

A table of identifiers is stored under the written forms of its keys, each value beside its key, and a
set is stored likewise. So keys are compared as texts. Since no two identifiers are written alike, this
amounts to comparing the identifiers themselves.

Calls may go to any of several collections in any order, and two tables may be combined into a third
one. There are three forms in which collections can be kept: as they are stored, as they are used here,
and as plain lists, where every operation says by itself what becomes of the list. Every call of a run
has the same answer in all three. Listing a collection is a call as well, so the order is the same too.
-/

namespace DependencyDiagram

section Runs

variable {σ τ κ α : Type}

/-- The answers to calls that are carried out one after the other. What is kept between the calls is not
part of the answers. Two forms of storage are compared by this list alone. -/
def answersTo (perform : σ → κ → α × σ) : σ → List κ → List α
  | _, [] => []
  | state, call :: rest =>
    let (answer, next) := perform state call
    answer :: answersTo perform next rest

/-- What agrees call by call gives the same answers to every run of calls. -/
theorem answersTo_view {perform : σ → κ → α × σ} {other : τ → κ → α × τ} {view : σ → τ}
    (each : ∀ state call, other (view state) call = Prod.map id view (perform state call))
    (state : σ) (calls : List κ) :
    answersTo other (view state) calls = answersTo perform state calls := by
  induction calls generalizing state with
  | nil => rfl
  | cons call rest inductionHypothesis =>
    simp only [answersTo, each, Prod.map_fst, Prod.map_snd, id_eq, inductionHypothesis]

end Runs

/-! ## Tables -/

/-- The entries of two lists: those of the first with the values of the second for the keys that both
list, and behind them those of the second with other keys. Keys of the first list keep their places. -/
def joinedEntries {κ ν : Type} [DecidableEq κ] (first second : List (κ × ν)) : List (κ × ν) :=
  first.map (fun entry => (entry.1, (second.lookup entry.1).getD entry.2)) ++
    second.filter (fun entry => entry.1 ∉ first.map Prod.fst)

/-- A form in which tables from identifiers to values can be kept. It is a record of operations and
carries no laws. The laws are that its answers are those of the plain lists. -/
structure TableForm (σ ν : Type) where
  /-- The table without keys. -/
  empty : σ
  /-- The keys with their values in order. -/
  entries : σ → List (NodeId × ν)
  /-- The value under a key. -/
  find : σ → NodeId → Option ν
  /-- The value under a key that must be listed. -/
  require : σ → NodeId → Except Failure ν
  /-- A key is listed. -/
  contains : σ → NodeId → Bool
  /-- Put a value under a key. The answer is the value that was there before. -/
  put : σ → NodeId → ν → Option ν × σ
  /-- Lend the value under a key, if there is one, to someone who changes it. -/
  lend : σ → NodeId → (ν → ν) → Option ν × σ
  /-- Lend the value under a key, after listing the key with a given value if need be. -/
  lendOrPut : σ → NodeId → ν → (ν → ν) → ν × σ
  /-- All entries of two tables, of which the second one wins. -/
  combine : σ → σ → σ

/-- A call that goes to one of several tables, or that combines two of them into one. Tables are
numbered, and a table that no call has filled is without keys. -/
inductive TableCall (ν : Type) where
  | entries (table : Nat)
  | find (table : Nat) (key : NodeId)
  | require (table : Nat) (key : NodeId)
  | contains (table : Nat) (key : NodeId)
  | put (table : Nat) (key : NodeId) (value : ν)
  | lend (table : Nat) (key : NodeId) (change : ν → ν)
  | lendOrPut (table : Nat) (key : NodeId) (value : ν) (change : ν → ν)
  | combine (first second result : Nat)

/-- The answer to a call for tables. -/
inductive TableAnswer (ν : Type) where
  | entries (entries : List (NodeId × ν))
  | found (value : Option ν)
  | required (result : Except Failure ν)
  | listed (answer : Bool)
  | lent (value : ν)
  | done

namespace TableForm

variable {σ τ ν : Type} {form : TableForm σ ν} {other : TableForm τ ν} {view : σ → τ}

/-- Carry out a call. No table changes but the one that the call is for. -/
def perform (form : TableForm σ ν) (tables : Nat → σ) : TableCall ν → TableAnswer ν × (Nat → σ)
  | .entries table => (.entries (form.entries (tables table)), tables)
  | .find table key => (.found (form.find (tables table) key), tables)
  | .require table key => (.required (form.require (tables table) key), tables)
  | .contains table key => (.listed (form.contains (tables table) key), tables)
  | .put table key value =>
    let (previous, next) := form.put (tables table) key value
    (.found previous, Function.update tables table next)
  | .lend table key change =>
    let (present, next) := form.lend (tables table) key change
    (.found present, Function.update tables table next)
  | .lendOrPut table key value change =>
    let (present, next) := form.lendOrPut (tables table) key value change
    (.lent present, Function.update tables table next)
  | .combine first second result =>
    (.done, Function.update tables result (form.combine (tables first) (tables second)))

/-- The answers to calls that begin with tables without keys. -/
def answers (form : TableForm σ ν) (calls : List (TableCall ν)) : List (TableAnswer ν) :=
  answersTo form.perform (fun _ => form.empty) calls

/-- Every table of the one form has a counterpart of the other, with which it agrees in all that can be
done. -/
structure Agrees (form : TableForm σ ν) (other : TableForm τ ν) (view : σ → τ) : Prop where
  empty : other.empty = view form.empty
  entries : ∀ table, other.entries (view table) = form.entries table
  find : ∀ table key, other.find (view table) key = form.find table key
  require : ∀ table key, other.require (view table) key = form.require table key
  contains : ∀ table key, other.contains (view table) key = form.contains table key
  put : ∀ table key value,
    other.put (view table) key value = Prod.map id view (form.put table key value)
  lend : ∀ table key change,
    other.lend (view table) key change = Prod.map id view (form.lend table key change)
  lendOrPut : ∀ table key value change,
    other.lendOrPut (view table) key value change =
      Prod.map id view (form.lendOrPut table key value change)
  combine : ∀ first second, other.combine (view first) (view second) = view (form.combine first second)

/-- Forms that agree carry out every call in the same way. -/
theorem Agrees.perform (agrees : form.Agrees other view) (tables : Nat → σ) (call : TableCall ν) :
    other.perform (view ∘ tables) call = Prod.map id (view ∘ ·) (form.perform tables call) := by
  cases call <;>
    simp [TableForm.perform, agrees.entries, agrees.find, agrees.require, agrees.contains, agrees.put,
      agrees.lend, agrees.lendOrPut, agrees.combine, Function.comp_update]

/-- Forms that agree give the same answers. -/
theorem Agrees.answers (agrees : form.Agrees other view) (calls : List (TableCall ν)) :
    other.answers calls = form.answers calls := by
  have start : (fun _ : Nat => other.empty) = view ∘ fun _ => form.empty :=
    funext (fun _ => agrees.empty)
  rw [TableForm.answers, TableForm.answers, start]
  exact answersTo_view agrees.perform _ calls

/-- Tables as plain lists of keys with their values. -/
def lists (ν : Type) : TableForm (List (NodeId × ν)) ν where
  empty := []
  entries table := table
  find table key := table.lookup key
  require table key :=
    match table.lookup key with
    | some value => .ok value
    | none => .error (missingId key)
  contains table key := decide (key ∈ table.map Prod.fst)
  put table key value :=
    (table.lookup key,
      if key ∈ table.map Prod.fst then
        table.map (fun entry => if entry.1 = key then (key, value) else entry)
      else table ++ [(key, value)])
  lend table key change :=
    (table.lookup key,
      table.map (fun entry => if entry.1 = key then (entry.1, change entry.2) else entry))
  lendOrPut table key value change :=
    match table.lookup key with
    | some present =>
      (present, table.map (fun entry => if entry.1 = key then (entry.1, change entry.2) else entry))
    | none => (value, table ++ [(key, change value)])
  combine := joinedEntries

/-- Tables as they are used here. -/
def tables (ν : Type) : TableForm (Table NodeId ν) ν where
  empty := Table.empty
  entries := Table.entries
  find := Table.get?
  require := Table.require
  contains := Table.contains
  put table key value := (table.get? key, table.put key value)
  lend table key change := (table.get? key, table.adjust key change)
  lendOrPut table key value change :=
    let (present, next) := table.getOrPut key value
    (present, next.adjust key change)
  combine := Table.combine

end TableForm

/-- A table as it is stored: under the written form of each key, the key with its value. The key is kept
beside the value because the written form is not read again when keys are listed. -/
structure StoredTable (ν : Type) where
  slots : Table String (NodeId × ν)

namespace StoredTable

variable {ν : Type}

/-- The value under a key. -/
def find (table : StoredTable ν) (key : NodeId) : Option ν :=
  (table.slots.get? key.encode).map Prod.snd

/-- Put a value under a key. -/
def put (table : StoredTable ν) (key : NodeId) (value : ν) : StoredTable ν :=
  ⟨table.slots.put key.encode (key, value)⟩

/-- Change the value under a key, if the key is listed. -/
def adjust (table : StoredTable ν) (key : NodeId) (change : ν → ν) : StoredTable ν :=
  ⟨table.slots.adjust key.encode (fun entry => (entry.1, change entry.2))⟩

end StoredTable

/-- Tables as they are stored. -/
def TableForm.stored (ν : Type) : TableForm (StoredTable ν) ν where
  empty := ⟨Table.empty⟩
  entries table := table.slots.values
  find := StoredTable.find
  require table key :=
    match table.find key with
    | some value => .ok value
    | none => .error (missingId key)
  contains table key := table.slots.contains key.encode
  put table key value := (table.find key, table.put key value)
  lend table key change := (table.find key, table.adjust key change)
  lendOrPut table key value change :=
    let (present, next) := table.slots.getOrPut key.encode (key, value)
    (present.2, StoredTable.adjust ⟨next⟩ key change)
  combine first second :=
    second.slots.values.foldl (fun table entry => table.put entry.1 entry.2) first

section Listed

variable {κ ν : Type} [DecidableEq κ]

/-- Nothing is looked up exactly where the key is not listed. -/
theorem lookup_eq_none_iff {entries : List (κ × ν)} {key : κ} :
    entries.lookup key = none ↔ key ∉ entries.map Prod.fst := by
  rw [List.lookup_eq_none_iff, List.mem_map]
  constructor
  · rintro apart ⟨entry, listed, rfl⟩
    simpa using apart entry listed
  · intro missing entry listed
    exact bne_iff_ne.mpr (fun same => missing ⟨entry, listed, same.symm⟩)

/-- The first entry decides what is looked up if it has the key. -/
theorem lookup_cons_eq (entry : κ × ν) (rest : List (κ × ν)) (key : κ) :
    (entry :: rest).lookup key = if entry.1 = key then some entry.2 else rest.lookup key := by
  obtain ⟨other, value⟩ := entry
  rw [List.lookup_cons]
  by_cases here : other = key
  · simp [here]
  · rw [beq_false_of_ne (Ne.symm here), if_neg here]

/-- What is found under a key is what is looked up in the list of entries. -/
theorem Table.get?_eq_lookup (table : Table κ ν) (key : κ) :
    table.get? key = table.entries.lookup key := by
  rw [get?]
  induction table.entries with
  | nil => rfl
  | cons entry rest inductionHypothesis =>
    rw [lookup_cons_eq, ← inductionHypothesis, List.find?_cons]
    by_cases here : entry.1 = key <;> simp [here]

/-- Entries with other keys are left alone where the value of a key is replaced. -/
theorem map_replace_of_not_mem {key : κ} {entries : List (κ × ν)} (missing : key ∉ entries.map Prod.fst)
    (replace : κ × ν → κ × ν) :
    entries.map (fun entry => if entry.1 = key then replace entry else entry) = entries := by
  have each : ∀ entry ∈ entries, (if entry.1 = key then replace entry else entry) = id entry :=
    fun entry listed => if_neg (fun same => missing (List.mem_map.mpr ⟨entry, listed, same⟩))
  rw [List.map_congr_left each, List.map_id]

/-- The value of a listed key is replaced in place. -/
theorem putEntry_of_mem {key : κ} {entries : List (κ × ν)} (known : key ∈ entries.map Prod.fst)
    (distinct : (entries.map Prod.fst).Nodup) (value : ν) :
    putEntry key value entries =
      entries.map (fun entry => if entry.1 = key then (key, value) else entry) := by
  induction entries with
  | nil => cases known
  | cons entry rest inductionHypothesis =>
    obtain ⟨apart, later⟩ := List.nodup_cons.mp distinct
    by_cases here : entry.1 = key
    · rw [putEntry, if_pos here, List.map_cons, if_pos here,
        map_replace_of_not_mem (here ▸ apart) (fun _ => (key, value))]
    · have further : key ∈ rest.map Prod.fst := (List.mem_cons.mp known).resolve_left (Ne.symm here)
      rw [putEntry, if_neg here, List.map_cons, if_neg here, inductionHypothesis further later]

/-- Putting a value replaces that of a listed key in place, and lists any other key at the end. -/
theorem Table.entries_put (table : Table κ ν) (key : κ) (value : ν) :
    (table.put key value).entries =
      if key ∈ table.entries.map Prod.fst then
        table.entries.map (fun entry => if entry.1 = key then (key, value) else entry)
      else table.entries ++ [(key, value)] := by
  rw [put]
  split
  · next known => exact putEntry_of_mem known table.distinct value
  · next new => exact putEntry_of_not_mem new value

/-- An entry may be put into the first list before the others are joined to it. If the key is known, its
value is replaced in place and the entry is missed among the further ones in the same way; otherwise the
entry comes to stand behind the first list, where it is joined anyway. -/
theorem joinedEntries_put (first : Table κ ν) {entry : κ × ν} {rest : List (κ × ν)}
    (apart : entry.1 ∉ rest.map Prod.fst) :
    joinedEntries (first.put entry.1 entry.2).entries rest =
      joinedEntries first.entries (entry :: rest) := by
  have absent : rest.lookup entry.1 = none := lookup_eq_none_iff.mpr apart
  have keys : (first.put entry.1 entry.2).entries.map Prod.fst = _ := first.keys_put entry.1 entry.2
  rw [joinedEntries, joinedEntries, keys, Table.entries_put]
  by_cases known : entry.1 ∈ first.entries.map Prod.fst
  · have same : entry.1 ∈ first.keys := known
    rw [if_pos known, if_pos same, List.map_map, List.filter_cons_of_neg (by simpa using known)]
    congr 1
    refine List.map_congr_left (fun other _ => ?_)
    by_cases here : other.1 = entry.1
    · simp [here, lookup_cons_eq, absent]
    · simp [here, Ne.symm here, lookup_cons_eq]
  · have new : entry.1 ∉ first.keys := known
    have others : ∀ other ∈ first.entries, entry.1 ≠ other.1 :=
      fun other listed same => known (List.mem_map.mpr ⟨other, listed, same.symm⟩)
    rw [if_neg known, if_neg new, List.map_append, List.map_singleton, absent, Option.getD_none,
      List.filter_cons_of_pos (by simpa using known), List.append_assoc]
    congr 1
    · exact List.map_congr_left (fun other listed => by
        rw [lookup_cons_eq, if_neg (others other listed)])
    · refine congrArg (entry :: ·) (List.filter_congr (fun other listed => ?_))
      have different : other.1 ≠ entry.1 :=
        fun same => apart (List.mem_map.mpr ⟨other, listed, same⟩)
      refine decide_eq_decide.mpr (not_congr ?_)
      rw [List.mem_append, List.mem_singleton, or_iff_left different]
      exact Iff.rfl

/-- Combining two tables joins their entries. -/
theorem Table.entries_combine (first second : Table κ ν) :
    (first.combine second).entries = joinedEntries first.entries second.entries := by
  obtain ⟨others, distinct⟩ := second
  rw [combine]
  induction others generalizing first with
  | nil => simp [joinedEntries]
  | cons entry rest inductionHypothesis =>
    obtain ⟨apart, later⟩ := List.nodup_cons.mp distinct
    rw [List.foldl_cons, inductionHypothesis _ later, joinedEntries_put first apart]

end Listed

namespace TableForm

/-- Tables agree with the lists of their entries. There is one field for each operation. What an
operation answers and what it leaves behind are read off the entries, and only lending a value that is to
be put there first needs to know whether the key is there. -/
theorem agrees_lists (ν : Type) : (tables ν).Agrees (lists ν) Table.entries where
  empty := rfl
  entries _ := rfl
  find table key := (table.get?_eq_lookup key).symm
  require table key := by
    change _ = table.require key
    rw [Table.require, table.get?_eq_lookup]
    rfl
  contains table key := by
    change decide (key ∈ table.keys) = table.contains key
    rw [Bool.eq_iff_iff, decide_eq_true_eq, Table.contains_iff]
  put table key value := by
    change (_, _) = (table.get? key, (table.put key value).entries)
    rw [table.get?_eq_lookup, table.entries_put]
  lend table key change := by
    change (_, _) = (table.get? key, (table.adjust key change).entries)
    rw [table.get?_eq_lookup]
    rfl
  lendOrPut table key value change := by
    cases found : table.get? key with
    | some present =>
      have listed : table.entries.lookup key = some present := table.get?_eq_lookup key ▸ found
      simp [lists, tables, Table.getOrPut, found, listed, Table.adjust]
    | none =>
      have missing : table.entries.lookup key = none := table.get?_eq_lookup key ▸ found
      have new : key ∉ table.entries.map Prod.fst := lookup_eq_none_iff.mp missing
      have others := map_replace_of_not_mem new (fun entry => (entry.1, change entry.2))
      simp [lists, tables, Table.getOrPut, found, missing, Table.adjust, Table.entries_put, new, others]
  combine first second := (first.entries_combine second).symm

end TableForm

namespace Table

variable {ν : Type}

/-- A key with its value under the written form of the key. -/
def slot (entry : NodeId × ν) : String × NodeId × ν := (entry.1.encode, entry)

/-- The stored form of a table. No two keys are written alike. -/
def stored (table : Table NodeId ν) : StoredTable ν where
  slots :=
    { entries := table.entries.map slot
      distinct := by
        have texts : (table.entries.map slot).map Prod.fst =
            (table.entries.map Prod.fst).map NodeId.encode := by
          rw [List.map_map, List.map_map]
          rfl
        rw [texts]
        exact table.distinct.map (fun _ _ => NodeId.encode_injective) }

variable (table : Table NodeId ν) (key : NodeId)

/-- Written forms are alike exactly where the keys are. -/
theorem slot_fst_eq_iff (entry : NodeId × ν) : (slot entry).1 = key.encode ↔ entry.1 = key :=
  ⟨NodeId.encode_injective, congrArg NodeId.encode⟩

/-- The stored form lists the entries of the table. -/
theorem values_stored : table.stored.slots.values = table.entries := by
  rw [values, stored, List.map_map]
  exact List.map_id _

/-- The stored form has under a written key the key with its value. -/
theorem get?_stored :
    table.stored.slots.get? key.encode = (table.get? key).map (fun value => (key, value)) := by
  rw [get?, get?, stored, List.find?_map]
  simp only [Function.comp_def, slot_fst_eq_iff, Option.map_map]
  cases found : table.entries.find? (fun entry => entry.1 = key) with
  | none => rfl
  | some entry =>
    obtain rfl : entry.1 = key := by simpa using List.find?_some found
    rfl

/-- The stored form finds what the table has under a key. -/
theorem find_stored : table.stored.find key = table.get? key := by
  rw [StoredTable.find, get?_stored, Option.map_map]
  exact Option.map_id_apply

/-- The stored form lists the keys of the table. -/
theorem contains_stored : table.stored.slots.contains key.encode = table.contains key := by
  rw [contains, contains, stored, List.any_map]
  simp only [Function.comp_def, slot_fst_eq_iff]

/-- Putting a value into the stored form gives the stored form of the table with the value. -/
theorem put_stored (value : ν) : table.stored.put key value = (table.put key value).stored := by
  -- both lists are searched in step, since no other key is written as this one is
  have entries (entries : List (NodeId × ν)) :
      putEntry key.encode (key, value) (entries.map slot) = (putEntry key value entries).map slot := by
    induction entries with
    | nil => rfl
    | cons entry rest inductionHypothesis =>
      by_cases here : entry.1 = key
      · simp [putEntry, slot_fst_eq_iff, here]
        rfl
      · simp [putEntry, slot_fst_eq_iff, here, inductionHypothesis]
  simp only [StoredTable.put, put, stored, entries]

/-- Changing a value of the stored form gives the stored form of the table with the change. -/
theorem adjust_stored (change : ν → ν) :
    table.stored.adjust key change = (table.adjust key change).stored := by
  simp only [StoredTable.adjust, adjust, stored, List.map_map, StoredTable.mk.injEq, Table.mk.injEq]
  refine List.map_congr_left (fun entry _ => ?_)
  by_cases here : entry.1 = key
  · simp [slot, here]
  · simp [slot_fst_eq_iff, here]

end Table

/-- The stored forms of tables agree with the tables. The stored form has the texts of the identifiers
for its keys. As texts tell identifiers apart, each operation on the stored form finds and changes the
entry that the table's own operation does. -/
theorem TableForm.agrees_stored (ν : Type) : (tables ν).Agrees (stored ν) Table.stored where
  empty := rfl
  entries := Table.values_stored
  find := Table.find_stored
  require table key := by
    change (match table.stored.find key with
      | some value => .ok value
      | none => .error (missingId key)) = table.require key
    rw [Table.find_stored]
    rfl
  contains := Table.contains_stored
  put table key value := by
    change (table.stored.find key, table.stored.put key value) = _
    rw [Table.find_stored, Table.put_stored]
    rfl
  lend table key change := by
    change (table.stored.find key, table.stored.adjust key change) = _
    rw [Table.find_stored, Table.adjust_stored]
    rfl
  lendOrPut table key value change := by
    cases found : table.get? key with
    | some present =>
      have held : table.stored.slots.get? key.encode = some (key, present) := by
        rw [Table.get?_stored, found, Option.map_some]
      simp only [stored, tables, Table.getOrPut, held, found, Prod.map_apply, id_eq]
      exact congrArg (present, ·) (table.adjust_stored key change)
    | none =>
      have missing : table.stored.slots.get? key.encode = none := by
        rw [Table.get?_stored, found, Option.map_none]
      simp only [stored, tables, Table.getOrPut, missing, found, Prod.map_apply, id_eq]
      rw [← Table.adjust_stored, ← Table.put_stored]
      rfl
  combine first second := by
    change second.stored.slots.values.foldl _ first.stored = (second.entries.foldl _ first).stored
    rw [Table.values_stored]
    induction second.entries generalizing first with
    | nil => rfl
    | cons entry rest inductionHypothesis =>
      rw [List.foldl_cons, List.foldl_cons, Table.put_stored, inductionHypothesis]

/-! ## Sets -/

/-- A form in which sets of identifiers can be kept. A form is used through these operations alone, and
two forms agree if these do. -/
structure SetForm (σ : Type) where
  /-- The set without members. -/
  empty : σ
  /-- The members in order. -/
  members : σ → List NodeId
  /-- An identifier is a member. -/
  contains : σ → NodeId → Bool
  /-- Add an identifier. The answer says whether it is a new member. -/
  add : σ → NodeId → Bool × σ
  /-- Remove an identifier. The answer says whether it was a member. -/
  remove : σ → NodeId → Bool × σ
  /-- The set with the members of a list. -/
  collect : List NodeId → σ

/-- A call that goes to one of several sets. -/
inductive SetCall where
  | members (set : Nat)
  | contains (set : Nat) (member : NodeId)
  | add (set : Nat) (member : NodeId)
  | remove (set : Nat) (member : NodeId)
  | collect (set : Nat) (members : List NodeId)

/-- The answer to a call for sets. -/
inductive SetAnswer where
  | members (members : List NodeId)
  | truth (answer : Bool)
  | done

namespace SetForm

variable {σ τ : Type} {form : SetForm σ} {other : SetForm τ} {view : σ → τ}

/-- Carry out a call. No set changes but the one that the call is for. -/
def perform (form : SetForm σ) (sets : Nat → σ) : SetCall → SetAnswer × (Nat → σ)
  | .members set => (.members (form.members (sets set)), sets)
  | .contains set member => (.truth (form.contains (sets set) member), sets)
  | .add set member =>
    let (new, next) := form.add (sets set) member
    (.truth new, Function.update sets set next)
  | .remove set member =>
    let (present, next) := form.remove (sets set) member
    (.truth present, Function.update sets set next)
  | .collect set members => (.done, Function.update sets set (form.collect members))

/-- The answers to calls that begin with sets without members. -/
def answers (form : SetForm σ) (calls : List SetCall) : List SetAnswer :=
  answersTo form.perform (fun _ => form.empty) calls

/-- Every set of the one form has a counterpart of the other, with which it agrees in all that can be
done. -/
structure Agrees (form : SetForm σ) (other : SetForm τ) (view : σ → τ) : Prop where
  empty : other.empty = view form.empty
  members : ∀ set, other.members (view set) = form.members set
  contains : ∀ set member, other.contains (view set) member = form.contains set member
  add : ∀ set member, other.add (view set) member = Prod.map id view (form.add set member)
  remove : ∀ set member, other.remove (view set) member = Prod.map id view (form.remove set member)
  collect : ∀ members, other.collect members = view (form.collect members)

/-- Forms that agree carry out every call in the same way. -/
theorem Agrees.perform (agrees : form.Agrees other view) (sets : Nat → σ) (call : SetCall) :
    other.perform (view ∘ sets) call = Prod.map id (view ∘ ·) (form.perform sets call) := by
  cases call <;>
    simp [SetForm.perform, agrees.members, agrees.contains, agrees.add, agrees.remove, agrees.collect,
      Function.comp_update]

/-- Forms that agree give the same answers. -/
theorem Agrees.answers (agrees : form.Agrees other view) (calls : List SetCall) :
    other.answers calls = form.answers calls := by
  have start : (fun _ : Nat => other.empty) = view ∘ fun _ => form.empty :=
    funext (fun _ => agrees.empty)
  rw [SetForm.answers, SetForm.answers, start]
  exact answersTo_view agrees.perform _ calls

/-- Sets as plain lists of members. -/
def lists : SetForm (List NodeId) where
  empty := []
  members set := set
  contains set member := decide (member ∈ set)
  add set member := if member ∈ set then (false, set) else (true, set ++ [member])
  remove set member := (decide (member ∈ set), set.erase member)
  collect := List.eraseDups

/-- Sets as they are used here. -/
def collections : SetForm (Collection NodeId) where
  empty := Collection.empty
  members := Collection.members
  contains := Collection.contains
  add set member := (!set.contains member, set.add member)
  remove set member := (set.contains member, set.remove member)
  collect := Collection.ofList

end SetForm

/-- A set as it is stored: the members under their written forms. As the written forms tell identifiers
apart, no member is lost to another. -/
structure StoredSet where
  slots : Table String NodeId

namespace StoredSet

/-- The set without members. -/
def empty : StoredSet := ⟨Table.empty⟩

/-- An identifier is a member. -/
def contains (set : StoredSet) (member : NodeId) : Bool := set.slots.contains member.encode

/-- Add an identifier, unless it is a member. -/
def add (set : StoredSet) (member : NodeId) : Bool × StoredSet :=
  if set.contains member then (false, set) else (true, ⟨set.slots.put member.encode member⟩)

/-- Remove an identifier; the other members keep their order. -/
def remove (set : StoredSet) (member : NodeId) : Bool × StoredSet :=
  (set.contains member,
    { slots :=
        { entries := set.slots.entries.filter (fun slot => slot.1 ≠ member.encode)
          distinct := set.slots.distinct.sublist (List.filter_sublist.map Prod.fst) } })

end StoredSet

/-- Sets as they are stored. -/
def SetForm.stored : SetForm StoredSet where
  empty := StoredSet.empty
  members set := set.slots.values
  contains := StoredSet.contains
  add := StoredSet.add
  remove := StoredSet.remove
  collect members := members.foldl (fun set member => (set.add member).2) StoredSet.empty

/-- A set filled from a list lists each member once, where it comes first. -/
theorem Collection.members_ofList {κ : Type} [DecidableEq κ] (members : List κ) :
    (ofList members).members = members.eraseDups := by
  induction members using List.reverseRecOn with
  | nil => rfl
  | append_singleton members last inductionHypothesis =>
    have step : ofList (members ++ [last]) = (ofList members).add last := by
      simp [ofList, List.foldl_append]
    rw [step, add, List.eraseDups_append]
    by_cases known : last ∈ members
    · have nothingNew : [last].removeAll members = [] := by simpa [List.removeAll] using known
      rw [dif_pos (mem_ofList.mpr known), nothingNew, List.eraseDups_nil, List.append_nil,
        inductionHypothesis]
    · have oneNew : [last].removeAll members = [last] := by simpa [List.removeAll] using known
      rw [dif_neg (mt mem_ofList.mp known), oneNew]
      simp [List.eraseDups_cons, inductionHypothesis]

/-- Sets agree with the lists of their members. -/
theorem SetForm.agrees_lists : collections.Agrees lists Collection.members where
  empty := rfl
  members _ := rfl
  contains _ _ := rfl
  add set member := by
    by_cases listed : member ∈ set.members <;>
      simp [lists, collections, Collection.add, Collection.contains, listed]
  remove set member := by
    change (_, set.members.erase member) = (_, set.members.filter (· ≠ member))
    rw [set.distinct.erase_eq_filter]
    refine congrArg (Prod.mk _) (List.filter_congr (fun other _ => ?_))
    rw [Bool.eq_iff_iff, bne_iff_ne, decide_eq_true_eq]
  collect members := (Collection.members_ofList members).symm

namespace Collection

variable (set : Collection NodeId) (member : NodeId)

/-- The stored form of a set. No two members are written alike. -/
def stored (set : Collection NodeId) : StoredSet where
  slots :=
    { entries := set.members.map (fun member => (member.encode, member))
      distinct := by
        rw [List.map_map]
        exact set.distinct.map (fun _ _ => NodeId.encode_injective) }

/-- The stored form has the members of the set. -/
theorem contains_stored : set.stored.contains member = set.contains member := by
  rw [Bool.eq_iff_iff, StoredSet.contains, Table.contains_iff, contains_iff, Table.keys, stored,
    List.map_map]
  exact List.mem_map_of_injective (fun _ _ => NodeId.encode_injective)

/-- Adding to the stored form gives the stored form of the set with the member. -/
theorem add_stored : set.stored.add member = (!set.contains member, (set.add member).stored) := by
  rw [StoredSet.add, contains_stored]
  by_cases listed : member ∈ set.members
  · have known : set.contains member = true := contains_iff.mpr listed
    rw [if_pos known, known, add, dif_pos listed, Bool.not_true]
  · have unknown : set.contains member = false :=
      Bool.not_eq_true _ |>.mp (mt contains_iff.mp listed)
    have unwritten : member.encode ∉ set.stored.slots.entries.map Prod.fst := by
      rw [stored, List.map_map]
      exact mt (List.mem_map_of_injective (fun _ _ => NodeId.encode_injective)).mp listed
    have slots : putEntry member.encode member set.stored.slots.entries =
        (set.members ++ [member]).map (fun member => (member.encode, member)) := by
      rw [putEntry_of_not_mem unwritten, stored, List.map_append]
      rfl
    rw [if_neg (by rw [unknown]; exact Bool.false_ne_true), unknown, Bool.not_false]
    simp only [Table.put, add, dif_neg listed]
    exact congrArg (Prod.mk true) (congrArg StoredSet.mk (Table.mk.injEq .. |>.mpr slots))

/-- Removing from the stored form gives the stored form of the set without the member. -/
theorem remove_stored :
    set.stored.remove member = (set.contains member, (set.remove member).stored) := by
  rw [StoredSet.remove, contains_stored]
  refine congrArg (Prod.mk _) ?_
  simp only [remove, stored, StoredSet.mk.injEq, Table.mk.injEq, List.filter_map, Function.comp_def]
  refine congrArg (List.map _) (List.filter_congr (fun other _ => ?_))
  rw [decide_eq_decide]
  exact not_congr ⟨NodeId.encode_injective, congrArg NodeId.encode⟩

end Collection

/-- The stored forms of sets agree with the sets. -/
theorem SetForm.agrees_stored : collections.Agrees stored Collection.stored where
  empty := rfl
  members set := by
    change (set.members.map _).map _ = set.members
    rw [List.map_map]
    exact List.map_id _
  contains := Collection.contains_stored
  add := Collection.add_stored
  remove := Collection.remove_stored
  collect members := by
    -- the set filled so far is generalised, for members are added to any set in the same way
    have each (set : Collection NodeId) :
        members.foldl (fun stored member => (stored.add member).2) set.stored =
          (members.foldl Collection.add set).stored := by
      induction members generalizing set with
      | nil => rfl
      | cons member rest inductionHypothesis =>
        rw [List.foldl_cons, List.foldl_cons, Collection.add_stored, inductionHypothesis]
    exact each Collection.empty

/-- Tables and sets of identifiers answer every run of calls as the plain lists do, as they are used here
and as they are stored. A key that must be listed and is not makes the call fail as not found. The plain
lists are the specification. Each of their operations can be understood by itself, and a run of calls on
them needs no invariant but that keys do not repeat. -/
theorem collections_answer_as_lists (ν : Type) :
    (∀ calls : List (TableCall ν),
      (TableForm.tables ν).answers calls = (TableForm.lists ν).answers calls ∧
      (TableForm.stored ν).answers calls = (TableForm.lists ν).answers calls) ∧
    (∀ calls : List SetCall,
      SetForm.collections.answers calls = SetForm.lists.answers calls ∧
      SetForm.stored.answers calls = SetForm.lists.answers calls) ∧
    ∀ (table : List (NodeId × ν)) (key : NodeId),
      (key ∉ table.map Prod.fst ∧ (TableForm.lists ν).require table key = .error (missingId key) ∧
        (missingId key).kind = .notFound) ∨
      ∃ value, (key, value) ∈ table ∧ (TableForm.lists ν).require table key = .ok value := by
  refine ⟨fun calls => ?_, fun calls => ?_, fun table key => ?_⟩
  · have used := (TableForm.agrees_lists ν).answers calls
    exact ⟨used.symm, ((TableForm.agrees_stored ν).answers calls).trans used.symm⟩
  · have used := SetForm.agrees_lists.answers calls
    exact ⟨used.symm, (SetForm.agrees_stored.answers calls).trans used.symm⟩
  · cases found : table.lookup key with
    | none => exact Or.inl ⟨lookup_eq_none_iff.mp found, by simp [TableForm.lists, found], rfl⟩
    | some value =>
      have listed : (key, value) ∈ table := by
        obtain ⟨first, later, rfl, -⟩ := List.lookup_eq_some_iff.mp found
        simp
      exact Or.inr ⟨value, listed, by simp [TableForm.lists, found]⟩

end DependencyDiagram
