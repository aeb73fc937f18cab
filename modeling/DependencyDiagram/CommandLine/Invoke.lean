import DependencyDiagram.CommandLine.Arguments
import DependencyDiagram.CommandLine.Run

/-!
# Invocations

An invocation reads its arguments and carries out what they ask for. The text of a run goes
to the named file, or to the standard output with a line break behind it. The exit status
is zero for success, one for a run that failed, and two for arguments that were refused.
-/

namespace DependencyDiagram

/-- What an invocation leaves behind, apart from files. Both outputs are whole texts, since
nothing is shown before the invocation is over. -/
structure Outcome where
  status : Nat
  standardOutput : String
  standardError : String
deriving DecidableEq, Repr

namespace Outcome

/-- A success with the given output. -/
def success (output : String) : Outcome := ⟨0, output, ""⟩

/-- A run that failed. -/
def failed (failure : Failure) : Outcome := ⟨1, "", "Error: " ++ failure.describe ++ "\n"⟩

end Outcome

/-- The name and the version of the program. -/
def versionText : String := "asmgraph 0.1.0\n"

/-- How the program is used. -/
def usageText : String := "Usage: asmgraph [OPTIONS] --input <FILE>\n"

/-- Why arguments were refused. -/
def ArgumentFault.message : ArgumentFault → String
  | unknown argument => "error: unexpected argument '" ++ argument ++ "' found\n"
  | missingValue name => "error: a value is required for '--" ++ name.word ++ "'\n"
  | unneededValue name => "error: unexpected value for '--" ++ name.word ++ "'\n"
  | badValue name value => "error: invalid value '" ++ value ++ "' for '--" ++ name.word ++ "'\n"
  | repeated name => "error: '--" ++ name.word ++ "' cannot be used multiple times\n"
  | missingInput => "error: '--input' was not provided\n"

variable {m : Type → Type} [Monad m]

/-- Write the text of a run to where it is to go. -/
def deliver (files : FileAccess m) (output : Option String) (text : String) :
    ExceptT Failure m String :=
  match output with
  | none => return text ++ "\n"
  | some path => do
    ExceptT.mk (files.write path text)
    return ""

/-- Carry out what the arguments ask for. -/
def invoke (explain : String → String) (files : FileAccess m) (arguments : List String) :
    m Outcome :=
  match Invocation.ofArguments arguments with
  | .error fault => return ⟨2, "", fault.message⟩
  | .ok .help => return .success usageText
  | .ok .version => return .success versionText
  | .ok (.run options output) => do
    match ← ExceptT.run (do deliver files output (← Run.perform explain files options)) with
    | .ok shown => return .success shown
    | .error failure => return .failed failure

end DependencyDiagram
