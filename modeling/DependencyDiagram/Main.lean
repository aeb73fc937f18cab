import DependencyDiagram.CommandLine.Invoke

/-!
# The command line program

The files of the operating system are the place where the program's texts are kept. All
decisions are made by the invocation; this module hands it the arguments and prints what it
leaves behind.
-/

namespace DependencyDiagram

/-- A fault of the operating system as a failure of an access to a path. -/
def failureOfSystem (path : String) (fault : IO.Error) : Failure :=
  match fault with
  | .noFileOrDirectory .. => PathFault.absent.failure path
  | .inappropriateType _ code _ =>
    (if code = 20 then PathFault.throughFile else .isDirectory).failure path
  | .permissionDenied .. =>
    (Failure.ofFile .forbidden "Permission denied (os error 13)").noting "path" path
  | other => (Failure.ofFile .other (toString other)).noting "path" path

/-- Read a file of the operating system. -/
def readSystemFile (path : String) : IO (Except Failure String) := do
  try
    match String.fromUTF8? (← IO.FS.readBinFile path) with
    | some text => return .ok text
    | none => return .error (PathFault.notText.failure path)
  catch fault => return .error (failureOfSystem path fault)

/-- Write a file of the operating system. -/
def writeSystemFile (path text : String) : IO (Except Failure Unit) := do
  try
    IO.FS.writeFile path text
    return .ok ()
  catch fault => return .error (failureOfSystem path fault)

/-- The files of the operating system. -/
def systemFiles : FileAccess IO := ⟨readSystemFile, writeSystemFile⟩

/-- What the program says of a text that holds no document. -/
def noDocument (_ : String) : String := "its members are not those of a document"

end DependencyDiagram

open DependencyDiagram in
/-- Carry out the arguments of the command line. -/
def main (arguments : List String) : IO UInt32 := do
  let outcome ← invoke noDocument systemFiles arguments
  (← IO.getStdout).putStr outcome.standardOutput
  (← IO.getStderr).putStr outcome.standardError
  return outcome.status.toUInt32
