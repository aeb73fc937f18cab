import DependencyDiagram.Json.Value
import DependencyDiagram.Ordered.Table

/-!
# Reading records from JSON values

A record with named fields may be written as an object or as an array of its fields in
order. In an object, keys that name no field are passed over, while a field given twice or a
key that denotes no text is refused. An array may be shorter than the record, which leaves
the last fields out, but not longer. Whether a field may be left out is for the record to
say; a field that is present must hold what the record expects.

A map is always an object. A repeated key takes its last value and keeps its first place.
-/

namespace DependencyDiagram.Json

/-- The text of a string. -/
def text? : Json → Option String
  | string spelling => unspell? spelling
  | _ => none

/-- The truth value. -/
def bool? : Json → Option Bool
  | bool value => some value
  | _ => none

/-- A whole number up to a bound, spelled without sign, fraction or exponent. -/
def nat? (bound : Nat) : Json → Option Nat
  | number spelling => wholeNumber? bound spelling
  | _ => none

/-- The items of an array, each read in the same way. -/
def list? {α : Type} (read : Json → Option α) : Json → Option (List α)
  | array items => items.mapM read
  | _ => none

/-- Either null or a value. -/
def nullable? {α : Type} (read : Json → Option α) : Json → Option (Option α)
  | null => some none
  | value => (read value).map some

/-- The entries of a map, with keys and values read each in their way. -/
def entries? {κ ν : Type} (readKey : String → Option κ) (readValue : Json → Option ν) :
    Json → Option (List (κ × ν))
  | object members => members.mapM (fun (spelling, value) => do
      return (← readKey spelling, ← readValue value))
  | _ => none

/-- A map in the order of its keys' first places. -/
def table? {κ ν : Type} [DecidableEq κ] (readKey : String → Option κ) (readValue : Json → Option ν)
    (value : Json) : Option (Table κ ν) :=
  (entries? readKey readValue value).map Table.ofList

/-- The fields that a record was given, each at most once. What is not among them was left
out. A record is read field by field from here, and each field says itself what stands for
it when it was left out. -/
structure Fields where
  given : List (String × Json)

/-- The members of an object that name fields, if all keys are texts and no field repeats. -/
def namedFields? (names : List String) (members : List (String × Json)) : Option Fields := do
  let keyed ← members.mapM (fun (spelling, value) => do return (← unspell? spelling, value))
  let given := keyed.filter (fun member => names.contains member.1)
  if (given.map Prod.fst).Nodup then some ⟨given⟩ else none

/-- The fields of a record, given by name or by position. -/
def fields? (names : List String) : Json → Option Fields
  | object members => namedFields? names members
  | array items => if items.length ≤ names.length then some ⟨names.zip items⟩ else none
  | _ => none

/-- The fields of a record of which an array must give every one. -/
def completeFields? (names : List String) (value : Json) : Option Fields :=
  match value with
  | array items => if items.length = names.length then value.fields? names else none
  | _ => value.fields? names

namespace Fields

variable {α : Type}

/-- A field as it was given, if it was. -/
def find? (fields : Fields) (name : String) : Option Json :=
  (fields.given.find? (fun member => member.1 == name)).map Prod.snd

/-- A field that must be given. -/
def required (fields : Fields) (name : String) (read : Json → Option α) : Option α :=
  (fields.find? name).bind read

/-- A field that may be left out, which then has a value of its own. -/
def withDefault (fields : Fields) (name : String) (absent : α) (read : Json → Option α) : Option α :=
  match fields.find? name with
  | none => some absent
  | some value => read value

end Fields

end DependencyDiagram.Json
