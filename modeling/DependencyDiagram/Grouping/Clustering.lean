import DependencyDiagram.Identity.NodeCodec
import DependencyDiagram.Ordered.Table

/-!
# Clustering policies

A policy chooses the groups above a leaf from the leaf's name, outermost group first. An
empty path leaves the leaf below the root.

Grouping by prefixes puts a name below every prefix that ends before a separator, passing
over prefixes that are empty or end in a separator themselves. Grouping by assembly does so
for the assemblies with reflection data and puts every other one into one of two buckets.
Grouping by layers follows the tags that were given for a name.
-/

namespace DependencyDiagram

/-- One group on the way from the root to a leaf. Groups with one label at one place are
merged, and the identifier and the promise of the first segment are the ones that count. -/
structure Segment where
  label : String
  /-- The group's own identifier; without one an identifier is minted. -/
  id : Option NodeId
  /-- Labels below the group are expected to extend the group's label. -/
  shortens : Bool
deriving DecidableEq

namespace Segment

/-- A group whose label is a qualifying prefix of its members' labels. -/
def prefixed (label : String) : Segment := ⟨label, none, true⟩

/-- A group whose label has nothing to do with its members' labels. -/
def bucket (label : String) : Segment := ⟨label, none, false⟩

/-- The same group with an identifier of its own. -/
def withId (segment : Segment) (id : NodeId) : Segment := { segment with id := some id }

end Segment

/-- The buckets for assemblies that are referenced without reflection data. One is for the
framework and one for everything else. They are groups like any other, and a label is all
that tells them from the groups of prefixes. -/
inductive MetaBucket where
  | framework
  | thirdParty
deriving DecidableEq, Repr

namespace MetaBucket

/-- The framework's assemblies are known by their names. -/
def ofName (name : String) : MetaBucket :=
  if name = "mscorlib" ∨ name = "netstandard" ∨ name = "System" ∨ name = "Microsoft" ∨
      Text.beginsWith "System." name ∨ Text.beginsWith "Microsoft." name then framework
  else thirdParty

/-- The label of a bucket's group. -/
def label : MetaBucket → String
  | framework => ".NET"
  | thirdParty => "3rd-party"

end MetaBucket

/-- The prefix of a name before a position that holds the separator, unless the prefix is
empty or ends in the separator. -/
def prefixAt? (separator : Char) (name : List Char) (position : Nat) : Option (List Char) :=
  let leading := name.take position
  if name[position]? = some separator ∧ leading ≠ [] ∧ leading.getLast? ≠ some separator then
    some leading
  else none

/-- The qualifying prefixes of a name, shortest first. -/
def qualifyingPrefixes (separator : Char) (name : String) : List String :=
  ((List.range name.toList.length).filterMap (prefixAt? separator name.toList)).map String.ofList

/-- The groups of a name's layers. Each is identified by the tags down to it. -/
def layerPath (groupBy : String) : List String → List String → Except Failure (List Segment)
  | _, [] => .ok []
  | above, tag :: rest => do
    let id ← NodeId.ofLayer groupBy ("/".intercalate (above ++ [tag]))
    return (Segment.bucket tag).withId id :: (← layerPath groupBy (above ++ [tag]) rest)

/-- A way of choosing the groups above a leaf. The last two policies need something that a
name does not tell: which assemblies were examined, and which layers a name was given. -/
inductive Clustering where
  | byPrefix (separator : Char)
  | byAssembly (known : List String)
  | byLayer (groupBy : String) (layers : Table String (List String))

namespace Clustering

/-- The groups for the prefixes of a name. -/
def prefixPath (separator : Char) (name : String) : List Segment :=
  (qualifyingPrefixes separator name).map Segment.prefixed

/-- The groups for the prefixes of a name have no identifier of their own. -/
theorem id_of_mem_prefixPath {separator : Char} {name : String} {segment : Segment}
    (listed : segment ∈ prefixPath separator name) : segment.id = none := by
  obtain ⟨label, _, rfl⟩ := List.mem_map.mp listed
  rfl

/-- The groups above a leaf with the given name. -/
def path (clustering : Clustering) (name : String) : Except Failure (List Segment) :=
  match clustering with
  | byPrefix separator => .ok (prefixPath separator name)
  | byAssembly known =>
    if name ∈ known then .ok (prefixPath '.' name)
    else .ok [Segment.bucket (MetaBucket.ofName name).label]
  | byLayer groupBy layers =>
    match layers.get? name with
    | none => .ok []
    | some tags => layerPath groupBy [] tags

end Clustering

/-- Prefixes that are empty or end in a separator are passed over. -/
example :
    qualifyingPrefixes '.' ".A..B.C" = [".A", ".A..B"] ∧ qualifyingPrefixes '.' "A." = ["A"] := by
  decide

end DependencyDiagram
