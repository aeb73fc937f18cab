import DependencyDiagram.Identity.Name
import DependencyDiagram.Text.Quoted

/-!
# Identifiers of nodes

A node is identified in one of four ways: by a name of its own, by a member's token inside
an assembly, by a layer within a grouping, or by a number minted for a group that has no
identity in the data. Each way has kinds, and a tag names the way and the kind together.

The order of identifiers goes by tag, then by names character by character, then by
number. The order of the tags among themselves is a different one: it is the order in which
the vocabulary lists them.
-/

namespace DependencyDiagram

/-- What a plain name identifies. They differ in the tag in front of the name only, and the
name is written as it is. -/
inductive NamedKind where
  | nameSpace
  | assembly
  | customLeaf
  | customFolder
deriving DecidableEq, Repr

/-- What a token inside an assembly identifies. All of them are identified by the assembly's
name together with the token. -/
inductive MemberKind where
  | method
  | typeDefinition
  | field
  | event
  | property
  | attributeType
  | exceptionType
deriving DecidableEq, Repr

/-- What a minted number identifies. Both kinds draw their numbers from one mint. -/
inductive ArtificialKind where
  | group
  | memberException
deriving DecidableEq, Repr

/-- The identifier of a node. -/
inductive NodeId where
  | named (kind : NamedKind) (name : Name)
  | member (kind : MemberKind) (assembly : Name) (token : Token)
  | layerGroup (groupBy label : Name)
  | artificial (kind : ArtificialKind) (key : Token)
deriving DecidableEq

/-- The way of identification together with its kind. It decides what the fields behind it
are, and so how an identifier is read. -/
inductive NodeTag where
  | named (kind : NamedKind)
  | member (kind : MemberKind)
  | layerGroup
  | artificial (kind : ArtificialKind)
deriving DecidableEq, Repr

namespace NodeTag

/-- The first field of every identifier with this tag. -/
def word : NodeTag → String
  | named .nameSpace => "namespace"
  | named .assembly => "assembly"
  | named .customLeaf => "customLeaf"
  | named .customFolder => "customFolder"
  | member .method => "method"
  | member .typeDefinition => "type"
  | member .field => "field"
  | member .event => "event"
  | member .property => "property"
  | member .attributeType => "attribute"
  | member .exceptionType => "exception"
  | layerGroup => "customGroup"
  | artificial .group => "group"
  | artificial .memberException => "memberException"

instance : Vocabulary NodeTag where
  values := [named .nameSpace, named .assembly, artificial .group, named .customLeaf,
    named .customFolder, member .method, member .typeDefinition, member .field, member .event,
    member .property, artificial .memberException, layerGroup, member .attributeType,
    member .exceptionType]
  word := word
  complete
    | named kind => by cases kind <;> decide
    | member kind => by cases kind <;> decide
    | layerGroup => by decide
    | artificial kind => by cases kind <;> decide
  distinct left right := by
    rcases left with kind | kind | _ | kind <;> rcases right with other | other | _ | other <;>
      (try cases kind) <;> (try cases other) <;> decide

/-- The number of fields that follow the tag. -/
def fieldCount : NodeTag → Nat
  | named _ | artificial _ => 1
  | member _ | layerGroup => 2

/-- The place of a tag in the order of tags. -/
def place (tag : NodeTag) : Nat := (Vocabulary.values : List NodeTag).idxOf tag

end NodeTag

namespace NodeId

/-- The tag of an identifier. -/
def tag : NodeId → NodeTag
  | named kind _ => .named kind
  | member kind _ _ => .member kind
  | layerGroup _ _ => .layerGroup
  | artificial kind _ => .artificial kind

/-- Minted identifiers mean nothing outside of the build that minted them. -/
def isArtificial : NodeId → Bool
  | artificial _ _ => true
  | _ => false

/-- A plain name as an identifier, if the text is a name. -/
def ofName (kind : NamedKind) (text : String) : Except Failure NodeId := do
  return named kind (← Name.ofText text)

/-- A member as an identifier. The name is examined first; a zero token is reported with it. -/
def ofMember (kind : MemberKind) (assembly : String) (token : Nat) : Except Failure NodeId := do
  let name ← Name.ofText assembly
  match Token.ofNat? token with
  | some admitted => return member kind name admitted
  | none => throw (Failure.invalidNodeId (assembly ++ "|0") "metadata token must be non-zero")

/-- A layer of a grouping as an identifier. -/
def ofLayer (groupBy label : String) : Except Failure NodeId := do
  return layerGroup (← Name.ofText groupBy) (← Name.ofText label)

/-- The place of the tag in the order of identifiers. -/
def rank : NodeId → Nat
  | named .nameSpace _ => 0
  | named .assembly _ => 1
  | named .customLeaf _ => 2
  | named .customFolder _ => 3
  | member .method _ _ => 4
  | member .typeDefinition _ _ => 5
  | member .field _ _ => 6
  | member .event _ _ => 7
  | member .property _ _ => 8
  | member .attributeType _ _ => 9
  | member .exceptionType _ _ => 10
  | layerGroup _ _ => 11
  | artificial .group _ => 12
  | artificial .memberException _ => 13

/-- The two texts by which identifiers of one tag are ordered. -/
def orderTexts : NodeId → String × String
  | named _ name => (name.text, "")
  | member _ assembly _ => (assembly.text, "")
  | layerGroup groupBy label => (groupBy.text, label.text)
  | artificial _ _ => ("", "")

/-- The number by which identifiers with equal texts are ordered. -/
def orderNumber : NodeId → Nat
  | member _ _ token => token.value
  | artificial _ key => key.value
  | _ => 0

instance : Ord NodeId where
  compare left right :=
    (compare left.rank right.rank).then <|
      (compare left.orderTexts.1 right.orderTexts.1).then <|
        (compare left.orderTexts.2 right.orderTexts.2).then <|
          compare left.orderNumber right.orderNumber

/-- Identifiers in ascending order, repetitions kept. -/
def sorted (ids : List NodeId) : List NodeId :=
  ids.mergeSort (fun left right => (compare left right).isLE)

/-- The word for a tag in a message that cites an identifier. -/
def citedTag (id : NodeId) : String :=
  match id.tag.word.toList with
  | [] => ""
  | first :: rest => String.ofList (first.toUpper :: rest)

/-- A name in a message that cites an identifier. -/
def citedName (name : Name) : String := "IdName(" ++ Text.quoted name.text ++ ")"

/-- An identifier as a message cites it: the tag with every field named or quoted. -/
def cited (id : NodeId) : String :=
  id.citedTag ++
    match id with
    | named _ name => "(" ++ citedName name ++ ")"
    | member _ assembly token =>
      "(MetadataId \x7b assembly_name: " ++ citedName assembly ++ ", metadata_token: " ++
        toString token.value ++ " \x7d)"
    | layerGroup groupBy label =>
      " \x7b group_by: " ++ citedName groupBy ++ ", group_label: " ++ citedName label ++ " \x7d"
    | artificial _ key => "(ArtificialKey(" ++ toString key.value ++ "))"

end NodeId

end DependencyDiagram
