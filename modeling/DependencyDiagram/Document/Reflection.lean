import DependencyDiagram.Failure
import DependencyDiagram.Json.Writer
import DependencyDiagram.Json.Fields
import DependencyDiagram.Ordered.Ascending

/-!
# Reflection documents

A reflection document lists the executables of a solution, the assemblies that were
examined with their references and types, and the methods of each assembly with their
calls. Types and methods are known by tokens of thirty-two bits. Assemblies and methods are
kept in ascending order of their keys, whatever the order in the text.

The document carries a version. Text of another version is stale, whatever else it holds;
text of the present version must hold a whole document. Every field of the document and of
an assembly may be left out, and so may a type's namespace and a method's calls.

How a reader of JSON words what it misses in a text is its own affair. Wherever a document is
read, these words are a function of the text that is given from outside.
-/

namespace DependencyDiagram

/-- A type of an assembly. Nothing keeps two types of an assembly from having one token; it
then stands for the first of them. -/
structure TypeInfo where
  nameSpace : Option String
  name : String
  token : UInt32
deriving DecidableEq, Repr

/-- What is known of one assembly. References may name assemblies that the document does not
examine. The methods are kept apart from it, by the name of the assembly. -/
structure AssemblyInfo where
  references : List String
  types : List TypeInfo
deriving DecidableEq, Repr

/-- A method in some assembly. It says where a method would be found. Whether there is one
is a question to the document. -/
structure MethodRef where
  assembly : String
  token : UInt32
deriving DecidableEq, Repr

/-- A method; its name includes the list of parameters. A method may be called several
times, and each call is listed. -/
structure MethodInfo where
  name : String
  /-- The token of the type that declares the method. -/
  declaringType : UInt32
  calls : List MethodRef
deriving DecidableEq, Repr

/-- The whole document. Whatever it lists may refer to things that it does not list; a view
decides what becomes of these. Keys ascend, so that the order in which a text lists
assemblies and methods makes no difference. -/
structure Reflection where
  version : UInt32
  executables : List String
  assemblies : Ascending String AssemblyInfo
  methods : Ascending String (Ascending UInt32 MethodInfo)
deriving DecidableEq

/-- A whole number of thirty-two bits. -/
def Json.word32? (value : Json) : Option UInt32 := (value.nat? Text.maxWord32).map UInt32.ofNat

/-- A key that spells a whole number of thirty-two bits. -/
def Json.word32Key? (spelling : String) : Option UInt32 :=
  (Json.wholeNumber? Text.maxWord32 spelling).map UInt32.ofNat

namespace TypeInfo

/-- The name with its namespace in front; an empty namespace counts as none. -/
def fullName (info : TypeInfo) : String :=
  match info.nameSpace with
  | some space => if space = "" then info.name else space ++ "." ++ info.name
  | none => info.name

/-- The JSON form; an absent namespace is left out. -/
def toJson (info : TypeInfo) : Json :=
  Json.ofMembers ((info.nameSpace.map (fun space => ("namespace", Json.ofText space))).toList ++
    [("name", Json.ofText info.name), ("metadataToken", Json.ofNat info.token.toNat)])

/-- The type that a JSON value holds. -/
def ofJson? (value : Json) : Option TypeInfo := do
  let fields ← value.fields? ["namespace", "name", "metadataToken"]
  return {
    nameSpace := ← fields.withDefault "namespace" none (Json.nullable? Json.text?)
    name := ← fields.required "name" Json.text?
    token := ← fields.required "metadataToken" Json.word32? }

end TypeInfo

namespace AssemblyInfo

/-- The first type with a token. -/
def typeWithToken? (info : AssemblyInfo) (token : UInt32) : Option TypeInfo :=
  info.types.find? (fun candidate => candidate.token = token)

/-- The JSON form. -/
def toJson (info : AssemblyInfo) : Json :=
  Json.ofMembers [("referencedAssemblies", .array (info.references.map Json.ofText)),
    ("types", .array (info.types.map TypeInfo.toJson))]

/-- The assembly that a JSON value holds. -/
def ofJson? (value : Json) : Option AssemblyInfo := do
  let fields ← value.fields? ["referencedAssemblies", "types"]
  return {
    references := ← fields.withDefault "referencedAssemblies" [] (Json.list? Json.text?)
    types := ← fields.withDefault "types" [] (Json.list? TypeInfo.ofJson?) }

end AssemblyInfo

namespace MethodRef

/-- The JSON form. -/
def toJson (reference : MethodRef) : Json :=
  Json.ofMembers [("assemblyName", Json.ofText reference.assembly),
    ("metadataToken", Json.ofNat reference.token.toNat)]

/-- The reference that a JSON value holds. -/
def ofJson? (value : Json) : Option MethodRef := do
  let fields ← value.fields? ["assemblyName", "metadataToken"]
  return {
    assembly := ← fields.required "assemblyName" Json.text?
    token := ← fields.required "metadataToken" Json.word32? }

end MethodRef

namespace MethodInfo

/-- The JSON form. -/
def toJson (info : MethodInfo) : Json :=
  Json.ofMembers [("name", Json.ofText info.name),
    ("declaringType", Json.ofNat info.declaringType.toNat),
    ("calls", .array (info.calls.map MethodRef.toJson))]

/-- The method that a JSON value holds. -/
def ofJson? (value : Json) : Option MethodInfo := do
  let fields ← value.fields? ["name", "declaringType", "calls"]
  return {
    name := ← fields.required "name" Json.text?
    declaringType := ← fields.required "declaringType" Json.word32?
    calls := ← fields.withDefault "calls" [] (Json.list? MethodRef.ofJson?) }

end MethodInfo

/-- What a text holds: a document of the present version, or one of another version. Of
another version nothing but its number is kept, because its fields may mean something else. -/
inductive ReflectionText where
  | current (document : Reflection)
  | stale (found : UInt32)
deriving DecidableEq

/-- Why nothing can be read from a text: it is no JSON that states a version, or it states the present one
and holds no document. -/
inductive ReflectionFault where
  | malformed
  | mismatched
deriving DecidableEq, Repr

/-- The message about a fault. To say that a text does not match, the words of the reader are added that
explain where. -/
def ReflectionFault.message (explanation : String) : ReflectionFault → String
  | malformed => "reflection document is not valid JSON"
  | mismatched => "reflection document does not match: " ++ explanation

namespace Reflection

/-- The version that is understood. -/
def presentVersion : UInt32 := 1

/-- The document of the present version with nothing in it. -/
def empty : Reflection := ⟨presentVersion, [], Ascending.empty, Ascending.empty⟩

instance : Inhabited Reflection := ⟨empty⟩

/-- A method by its assembly and token. -/
def method? (document : Reflection) (assembly : String) (token : UInt32) : Option MethodInfo :=
  (document.methods.get? assembly).bind (fun methods => methods.get? token)

/-- The JSON form of the methods of one assembly, keyed by their tokens. -/
def methodsToJson (methods : Ascending UInt32 MethodInfo) : Json :=
  Json.ofMembers (methods.entries.map (fun entry => (toString entry.1.toNat, entry.2.toJson)))

/-- The JSON form of a document. -/
def toJson (document : Reflection) : Json :=
  Json.ofMembers [
    ("version", Json.ofNat document.version.toNat),
    ("exes", .array (document.executables.map Json.ofText)),
    ("assemblies", Json.ofMembers
      (document.assemblies.entries.map (fun entry => (entry.1, entry.2.toJson)))),
    ("assemblyMethods", Json.ofMembers
      (document.methods.entries.map (fun entry => (entry.1, methodsToJson entry.2))))]

/-- The text of a document. -/
def toText (document : Reflection) : String := document.toJson.compact

/-- The version that a JSON value states, which is zero if it states none. -/
def versionOf? (value : Json) : Option UInt32 := do
  (← value.fields? ["version"]).withDefault "version" 0 Json.word32?

/-- A map with ascending keys that a JSON value holds. -/
def ascending? {κ ν : Type} [Ord κ] [Std.TransOrd κ] [Std.LawfulEqOrd κ]
    (readKey : String → Option κ) (readValue : Json → Option ν) (value : Json) :
    Option (Ascending κ ν) :=
  (value.entries? readKey readValue).map Ascending.ofList

/-- The document that a JSON value holds. -/
def ofJson? (value : Json) : Option Reflection := do
  let fields ← value.fields? ["version", "exes", "assemblies", "assemblyMethods"]
  return {
    version := ← fields.withDefault "version" 0 Json.word32?
    executables := ← fields.withDefault "exes" [] (Json.list? Json.text?)
    assemblies := ← fields.withDefault "assemblies" Ascending.empty
      (ascending? Json.unspell? AssemblyInfo.ofJson?)
    methods := ← fields.withDefault "assemblyMethods" Ascending.empty
      (ascending? Json.unspell? (ascending? Json.word32Key? MethodInfo.ofJson?)) }

/-- What a text holds. The version is examined before anything else. -/
def content (text : String) : Except ReflectionFault ReflectionText :=
  match (Json.read? text).bind (fun value => (versionOf? value).map (value, ·)) with
  | none => .error .malformed
  | some (value, version) =>
    if version = presentVersion then
      match ofJson? value with
      | some document => .ok (.current document)
      | none => .error .mismatched
    else .ok (.stale version)

/-- The failure of reading a text, with a foreign fault underneath. -/
def unreadable (explain : String → String) (text : String) (fault : ReflectionFault) : Failure :=
  ((Failure.ofKind .deserializationFailed (fault.message (explain text))).during
    "model::parse").withSource

/-- Read a document from its text. -/
def parse (explain : String → String) (text : String) : Except Failure ReflectionText :=
  (content text).mapError (unreadable explain text)

/-- What is read from a text is what it holds. -/
theorem parse_eq_ok_iff {explain : String → String} {text : String} {held : ReflectionText} :
    parse explain text = .ok held ↔ content text = .ok held := by
  rw [parse]
  cases content text with
  | error fault => constructor <;> (intro impossible; cases impossible)
  | ok other => constructor <;> (intro same; cases same; rfl)

end Reflection

end DependencyDiagram
