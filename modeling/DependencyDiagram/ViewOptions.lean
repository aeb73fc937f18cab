import DependencyDiagram.Failure
import DependencyDiagram.Json.Writer
import DependencyDiagram.Json.Fields

/-!
# Options of a view

Four views can be drawn. Three of them come from reflection data, and the promises about
labels in them are enforced; the fourth shows a graph that the user supplied. Each view has
options for grouping, labels, layout and size. In stored form every option may be left out
and then has its default.
-/

namespace DependencyDiagram

/-- Which diagram is built. Options and filters are stored by view, and renders are awaited
by view, so views do not get in each other's way. -/
inductive ViewKind where
  | references
  | methods
  | apis
  | custom
deriving DecidableEq, Repr

namespace ViewKind

/-- The word for a view. -/
def word : ViewKind → String
  | references => "references"
  | methods => "methods"
  | apis => "apis"
  | custom => "custom"

instance : Vocabulary ViewKind where
  values := [references, methods, apis, custom]
  word := word
  complete kind := by cases kind <;> decide
  distinct left right := by cases left <;> cases right <;> decide

/-- Views of reflection data; their promises about labels are enforced. -/
def isPrimary (kind : ViewKind) : Bool := kind != custom

/-- Read the word for a view as a user gave it, or say which words there are. -/
def ofArgument (text : String) : Except String ViewKind :=
  match Vocabulary.read? text with
  | some kind => .ok kind
  | none => .error ("unknown view '" ++ text ++ "', expected one of: " ++
      ", ".intercalate ((Vocabulary.values : List ViewKind).map word))

/-- The view in a stored form: its word, or an object with the word as its only key and
null below it. -/
def ofJson? : Json → Option ViewKind
  | .object [(spelling, .null)] => (Json.unspell? spelling).bind Vocabulary.read?
  | value => value.text?.bind Vocabulary.read?

end ViewKind

/-- Whether an edge joins two leaves or touches a group. The kind decides how an edge is
styled and whether its labels are drawn. -/
inductive EdgeKind where
  | leaf
  | group
deriving DecidableEq, Repr

namespace EdgeKind

/-- The word for a kind of edges. -/
def word : EdgeKind → String
  | leaf => "leaf"
  | group => "group"

instance : Vocabulary EdgeKind where
  values := [leaf, group]
  word := word
  complete kind := by cases kind <;> decide
  distinct left right := by cases left <;> cases right <;> decide

end EdgeKind

/-- For which edges labels are drawn. An edge is of the one kind or of the other, so each
edge follows one of the two. -/
structure EdgeLabelOptions where
  leafs : Bool
  groups : Bool
deriving DecidableEq, Repr

namespace EdgeLabelOptions

/-- Labels between leaves only. -/
def standard : EdgeLabelOptions := ⟨true, false⟩

/-- Labels are drawn on edges of a kind. -/
def shows (options : EdgeLabelOptions) : EdgeKind → Bool
  | .leaf => options.leafs
  | .group => options.groups

/-- The stored form. -/
def toJson (options : EdgeLabelOptions) : Json :=
  Json.ofMembers [("leafs", .bool options.leafs), ("groups", .bool options.groups)]

/-- The options in a stored form. -/
def ofJson? (value : Json) : Option EdgeLabelOptions := do
  let fields ← value.fields? ["leafs", "groups"]
  return {
    leafs := ← fields.withDefault "leafs" standard.leafs Json.bool?
    groups := ← fields.withDefault "groups" standard.groups Json.bool? }

end EdgeLabelOptions

/-- How leaves are put into groups. They are part of the key under which sources and filters
are kept, because a filter for one grouping means nothing for another. -/
structure HierarchyOptions where
  /-- Groups may lie inside groups; otherwise only the outermost group of each leaf is kept. -/
  nested : Bool
  /-- A group of one leaf is dissolved. -/
  ungroupSingle : Bool
deriving DecidableEq, Repr

/-- The options of one view. The first three decide about the tree and the edges, and all
the others only about how these are drawn. -/
structure ViewOptions where
  viewType : ViewKind
  nested : Bool
  ungroupSingle : Bool
  shortLabels : Bool
  edgeLabels : EdgeLabelOptions
  verticalAlign : Bool
  /-- With more visible nodes the view is replaced by a message. -/
  maxNodes : Nat
  /-- With more visible edges the view is replaced by a message. -/
  maxEdges : Nat
  /-- Filters made from these options let edges end on expanded groups. -/
  hasParentEdges : Bool
deriving DecidableEq, Repr

namespace ViewOptions

/-- The defaults of a view. -/
def standard (kind : ViewKind) : ViewOptions where
  viewType := kind
  nested := true
  ungroupSingle := true
  shortLabels := true
  edgeLabels := .standard
  verticalAlign := false
  maxNodes := 1000
  maxEdges := 2000
  hasParentEdges := false

/-- The grouping in one word. Options with the same view and word give the same tree. -/
def clusterBy (options : ViewOptions) : String :=
  (if options.nested then "nested" else "flat") ++ (if options.ungroupSingle then "+ungroup" else "")

/-- The part of the options that shapes the tree. -/
def hierarchy (options : ViewOptions) : HierarchyOptions := ⟨options.nested, options.ungroupSingle⟩

/-- The stored form, with every option written. -/
def toJson (options : ViewOptions) : Json :=
  Json.ofMembers [
    ("viewType", Json.ofText options.viewType.word),
    ("nested", .bool options.nested),
    ("ungroupSingle", .bool options.ungroupSingle),
    ("shortLabels", .bool options.shortLabels),
    ("edgeLabels", options.edgeLabels.toJson),
    ("verticalAlign", .bool options.verticalAlign),
    ("maxNodes", Json.ofNat options.maxNodes),
    ("maxEdges", Json.ofNat options.maxEdges),
    ("hasParentEdges", .bool options.hasParentEdges)]

/-- The names of the options in the order in which they are written. -/
def fieldNames : List String :=
  ["viewType", "nested", "ungroupSingle", "shortLabels", "edgeLabels", "verticalAlign", "maxNodes",
    "maxEdges", "hasParentEdges"]

/-- The options in a stored form; those left out have the defaults of the references view. -/
def ofJson? (value : Json) : Option ViewOptions := do
  let fields ← value.fields? fieldNames
  let absent := standard .references
  return {
    viewType := ← fields.withDefault "viewType" absent.viewType ViewKind.ofJson?
    nested := ← fields.withDefault "nested" absent.nested Json.bool?
    ungroupSingle := ← fields.withDefault "ungroupSingle" absent.ungroupSingle Json.bool?
    shortLabels := ← fields.withDefault "shortLabels" absent.shortLabels Json.bool?
    edgeLabels := ← fields.withDefault "edgeLabels" absent.edgeLabels EdgeLabelOptions.ofJson?
    verticalAlign := ← fields.withDefault "verticalAlign" absent.verticalAlign Json.bool?
    maxNodes := ← fields.withDefault "maxNodes" absent.maxNodes (Json.nat? Text.maxWord64)
    maxEdges := ← fields.withDefault "maxEdges" absent.maxEdges (Json.nat? Text.maxWord64)
    hasParentEdges := ← fields.withDefault "hasParentEdges" absent.hasParentEdges Json.bool? }

end ViewOptions

end DependencyDiagram
