import DependencyDiagram.Identity.NodeId
import DependencyDiagram.Text.Pieces

/-!
# The flat text of node identifiers

A node's identifier is written as its tag and its fields with a separator between them.
Reading cuts the text at every separator, recognizes the tag, counts the fields and then
reads each of them. Of two faults the earlier in this order is reported; a member's number
is read before the assembly's name is examined.

A number may be read with a plus sign or leading zeros, which are not written, so several
texts can denote one identifier while each identifier has one written text.
-/

namespace DependencyDiagram

namespace NodeId

/-- The fields of an identifier after its tag. -/
def fields : NodeId → List String
  | named _ name => [name.text]
  | member _ assembly token => [assembly.text, toString token.value]
  | layerGroup groupBy label => [groupBy.text, label.text]
  | artificial _ key => [toString key.value]

/-- The written text of an identifier. -/
def encode (id : NodeId) : String := "|".intercalate (id.tag.word :: id.fields)

/-- Read a member's fields, the number before the name. -/
def decodeMember (text : String) (kind : MemberKind) (assembly token : String) :
    Except Failure NodeId :=
  match Text.natural? Text.maxWord32 token with
  | none => .error (Failure.invalidNodeId text ("bad metadata token '" ++ token ++ "'"))
  | some number => ofMember kind assembly number

/-- Read the number of a minted identifier. -/
def decodeArtificial (text : String) (kind : ArtificialKind) (key : String) :
    Except Failure NodeId :=
  match (Text.natural? Text.maxWord32 key).bind Token.ofNat? with
  | none => .error (Failure.invalidNodeId text ("bad artificial key '" ++ key ++ "'"))
  | some number => .ok (artificial kind number)

/-- Read the fields that follow a tag; their number must be the tag's own. -/
def decodeFields (text : String) : NodeTag → List String → Except Failure NodeId
  | .named kind, [name] => ofName kind name
  | .member kind, [assembly, token] => decodeMember text kind assembly token
  | .layerGroup, [groupBy, label] => ofLayer groupBy label
  | .artificial kind, [key] => decodeArtificial text kind key
  | tag, fields =>
    .error (Failure.invalidNodeId text
      ("tag '" ++ tag.word ++ "' expects " ++ toString tag.fieldCount ++ " field(s), found " ++
        toString fields.length))

/-- The failure for a text whose first field is no tag. -/
def unknownTag (text word : String) : Failure :=
  Failure.invalidNodeId text ("unrecognized tag '" ++ word ++ "'")

/-- Read an identifier from its text. -/
def decode (text : String) : Except Failure NodeId :=
  match Text.pieces fieldSeparator text with
  | [] => .error (unknownTag text "")
  | word :: fields =>
    match (Vocabulary.read? word : Option NodeTag) with
    | none => .error (unknownTag text word)
    | some tag => decodeFields text tag fields

/-- A plus sign and leading zeros are read and not written. -/
example :
    (decode "method|A|+007").map encode = .ok "method|A|7" := by decide

end NodeId

end DependencyDiagram
