import DependencyDiagram.Vocabulary

/-!
# Failures

A failure states its kind, a message, whether trying again may help, the operation that
failed and an ordered list of facts. Handing a failure to an outer operation keeps the
inner one among the facts, so the chain of calls stays readable. Facts are only ever
appended, and several facts may share a key; a look-up finds the earliest.

Whether a foreign fault lies underneath is recorded as a flag, since its own text is never
part of what is reported here.
-/

namespace DependencyDiagram

/-- Two outcomes agree when both are the same failure or both carry the same value. -/
instance decidableEqOutcome {ε α : Type} [DecidableEq ε] [DecidableEq α] :
    DecidableEq (Except ε α)
  | .error left, .error right => decidable_of_iff (left = right) (by simp)
  | .ok left, .ok right => decidable_of_iff (left = right) (by simp)
  | .error _, .ok _ => .isFalse (by simp)
  | .ok _, .error _ => .isFalse (by simp)

/-- What went wrong. Callers decide by the kind; the message and the facts are for people. -/
inductive FailureKind where
  | unexpected
  | invalidArgument
  | configInvalid
  | invalidNodeId
  | duplicateLeafName
  | notFound
  | structuralInvariantViolation
  | unexpectedClusterEdge
  | invariantViolation
  | renderFailed
  | serializationFailed
  | deserializationFailed
  | fileNotFound
  | permissionDenied
  | ioFailed
deriving DecidableEq, Repr

namespace FailureKind

/-- The word for a kind in reports. -/
def name : FailureKind → String
  | unexpected => "Unexpected"
  | invalidArgument => "InvalidArgument"
  | configInvalid => "ConfigInvalid"
  | invalidNodeId => "InvalidNodeId"
  | duplicateLeafName => "DuplicateLeafName"
  | notFound => "NotFound"
  | structuralInvariantViolation => "StructuralInvariantViolation"
  | unexpectedClusterEdge => "UnexpectedClusterEdge"
  | invariantViolation => "InvariantViolation"
  | renderFailed => "RenderFailed"
  | serializationFailed => "SerializationFailed"
  | deserializationFailed => "DeserializationFailed"
  | fileNotFound => "FileNotFound"
  | permissionDenied => "PermissionDenied"
  | ioFailed => "IoFailed"

instance : Vocabulary FailureKind where
  values := [unexpected, invalidArgument, configInvalid, invalidNodeId, duplicateLeafName, notFound,
    structuralInvariantViolation, unexpectedClusterEdge, invariantViolation, renderFailed,
    serializationFailed, deserializationFailed, fileNotFound, permissionDenied, ioFailed]
  word := name
  complete value := by cases value <;> decide
  distinct left right := by cases left <;> cases right <;> decide

/-- The renderer and the file system may recover by themselves. -/
def isRetryable : FailureKind → Bool
  | renderFailed | ioFailed => true
  | _ => false

/-- Kinds that point to broken data rather than to a user's mistake. -/
def isStructural : FailureKind → Bool
  | structuralInvariantViolation | unexpectedClusterEdge | invariantViolation => true
  | _ => false

end FailureKind

/-- Whether a failure may go away. A persistent failure did not, although it might have. -/
inductive FailureStatus where
  | permanent
  | temporary
  | persistent
deriving DecidableEq, Repr

namespace FailureStatus

/-- The word for a status in reports. -/
def name : FailureStatus → String
  | permanent => "permanent"
  | temporary => "temporary"
  | persistent => "persistent"

/-- The status of a fresh failure follows from its kind. -/
def ofKind (kind : FailureKind) : FailureStatus :=
  if kind.isRetryable then temporary else permanent

/-- A temporary failure that stays becomes persistent; the others keep their status. -/
def persist : FailureStatus → FailureStatus
  | temporary => persistent
  | status => status

end FailureStatus

/-- A failure with the operation that reports it and the facts gathered on the way. It is a
value like any other. Nothing is thrown, and two failures with the same parts are the same. -/
structure Failure where
  kind : FailureKind
  message : String
  status : FailureStatus
  /-- Empty as long as no operation has claimed the failure. -/
  operation : String
  facts : List (String × String)
  /-- A fault of the file system or of a text format lies underneath. -/
  hasSource : Bool
deriving DecidableEq, Repr

/-- The faults that the file system tells apart. -/
inductive FileFault where
  | missing
  | forbidden
  | other
deriving DecidableEq, Repr

namespace Failure

/-- A fresh failure, not yet claimed by any operation. -/
def ofKind (kind : FailureKind) (message : String) : Failure where
  kind := kind
  message := message
  status := FailureStatus.ofKind kind
  operation := ""
  facts := []
  hasSource := false

/-- Append one fact. -/
def noting (failure : Failure) (key value : String) : Failure :=
  { failure with facts := failure.facts ++ [(key, value)] }

/-- Claim a failure for an operation. An earlier claim is kept as the fact "called". -/
def during (failure : Failure) (operation : String) : Failure :=
  let kept := if failure.operation = "" then failure else failure.noting "called" failure.operation
  { kept with operation := operation }

/-- Record that a foreign fault lies underneath. -/
def withSource (failure : Failure) : Failure := { failure with hasSource := true }

/-- Trying again may help. -/
def asTemporary (failure : Failure) : Failure := { failure with status := .temporary }

/-- Trying again will not help. -/
def asPermanent (failure : Failure) : Failure := { failure with status := .permanent }

/-- Trying again did not help. -/
def persist (failure : Failure) : Failure := { failure with status := failure.status.persist }

/-- Only a temporary failure is worth another try. -/
def isRetryable (failure : Failure) : Bool := failure.status == .temporary

/-- The earliest fact recorded under a key. -/
def fact? (failure : Failure) (key : String) : Option String :=
  (failure.facts.find? (·.1 == key)).map Prod.snd

/-- The opening of every report: kind, status and operation. -/
def headline (failure : Failure) : String :=
  failure.kind.name ++ " (" ++ failure.status.name ++ ") at " ++ failure.operation

/-- One fact as text. -/
def factLine (fact : String × String) : String := fact.1 ++ ": " ++ fact.2

/-- The report on one line. Facts and message are left out when there are none. -/
def describe (failure : Failure) : String :=
  failure.headline ++
    (if failure.facts.isEmpty then ""
     else ", context \x7b " ++ ", ".intercalate (failure.facts.map factLine) ++ " \x7d") ++
    (if failure.message = "" then "" else " => " ++ failure.message)

/-- The report in paragraphs, down to but without the text of a foreign fault. -/
def report (failure : Failure) : String :=
  failure.headline ++ "\n" ++
    (if failure.message = "" then "" else "\n    Message: " ++ failure.message ++ "\n") ++
    (if failure.facts.isEmpty then ""
     else "\n    Context:\n" ++
       String.join (failure.facts.map (fun fact => "        " ++ factLine fact ++ "\n")))

/-- A text that is no identifier, and why. -/
def invalidNodeId (text reason : String) : Failure :=
  (ofKind .invalidNodeId ("invalid node id '" ++ text ++ "': " ++ reason)).noting "text" text

/-- A leaf name given twice. -/
def duplicateLeafName (name : String) : Failure :=
  (ofKind .duplicateLeafName ("leaf name '" ++ name ++ "' appears more than once")).noting "name" name

/-- A key that leads nowhere. -/
def notFound (key : String) : Failure :=
  (ofKind .notFound ("'" ++ key ++ "' not found")).noting "key" key

/-- An edge that would end on a cluster while such edges are not allowed. -/
def unexpectedClusterEdge (edge cluster : String) : Failure :=
  ((ofKind .unexpectedClusterEdge
    ("edge '" ++ edge ++ "' would terminate on cluster '" ++ cluster ++ "'")).noting
      "edge" edge).noting "cluster" cluster

/-- A fault of the file system, reported in its own words. -/
def ofFile (fault : FileFault) (message : String) : Failure :=
  let kind := match fault with
    | .missing => FailureKind.fileNotFound
    | .forbidden => .permissionDenied
    | .other => .ioFailed
  ((ofKind kind message).during "io").withSource

end Failure

end DependencyDiagram
