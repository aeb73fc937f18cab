import DependencyDiagram.Failure
import DependencyDiagram.Text.Pieces

/-!
# Paths to files

A path is a list of steps with slashes between them. It starts at the root if a slash comes
first and else in the directory of the run. A name leads down, two dots lead up, and a single
dot leads nowhere; nothing lies above the root. Repeated slashes count once, and a slash at
the end says that only a directory can be meant.

A location is what remains of a path when every step up has been taken. It counts the levels
above the directory of the run and lists the names from there.
-/

namespace DependencyDiagram

/-- What can be wrong with a path or with the file it leads to. Only the first is a kind of
fault of its own; the others differ in their words. -/
inductive PathFault where
  | absent
  | isDirectory
  | throughFile
  | tooLong
  | zeroCharacter
  | notText
deriving DecidableEq, Repr

namespace PathFault

/-- The words of the operating system for a fault. -/
def message : PathFault → String
  | absent => "No such file or directory (os error 2)"
  | isDirectory => "Is a directory (os error 21)"
  | throughFile => "Not a directory (os error 20)"
  | tooLong => "File name too long (os error 36)"
  | zeroCharacter => "file name contained an unexpected NUL byte"
  | notText => "stream did not contain valid UTF-8"

/-- The fault as the file system tells faults apart. -/
def fault : PathFault → FileFault
  | absent => .missing
  | _ => .other

/-- The failure of an access to a path. -/
def failure (pathFault : PathFault) (path : String) : Failure :=
  (Failure.ofFile pathFault.fault pathFault.message).noting "path" path

end PathFault

/-- One step of a path. Empty parts between two slashes are no steps. -/
inductive PathStep where
  | stay
  | up
  | down (name : String)
deriving DecidableEq, Repr

/-- The step that a part between two slashes stands for. -/
def PathStep.ofText (text : String) : PathStep :=
  if text = "." then stay else if text = ".." then up else down text

/-- A path as it is walked. Steps up are not taken back yet, because whether a step can be
taken depends on the files. Whether the text ended in a slash matters only for the last
step. -/
structure Path where
  fromRoot : Bool
  steps : List PathStep
  endsInSlash : Bool
deriving DecidableEq, Repr

namespace Path

/-- The longest name, in bytes. -/
def maxName : Nat := 255

/-- The longest path, in bytes. -/
def maxLength : Nat := 4095

/-- The steps of a path and the slashes at its two ends. -/
def ofText (text : String) : Path where
  fromRoot := Text.beginsWith "/" text
  steps := ((Text.pieces '/' text).filter (· ≠ "")).map PathStep.ofText
  endsInSlash := (Text.pieces '/' text).getLast? == some ""

/-- A path that can be walked at all: it is not empty, no character of it ends it early, and
it is not too long. -/
def read (text : String) : Except PathFault Path :=
  if '\x00' ∈ text.toList then .error .zeroCharacter
  else if text = "" then .error .absent
  else if maxLength < text.utf8ByteSize then .error .tooLong
  else .ok (ofText text)

/-- Dots and repeated slashes are no names, and a slash at the end is remembered. -/
example :
    ofText "./a//../b/" = ⟨false, [.stay, .down "a", .up, .down "b"], true⟩ ∧
      ofText "/" = ⟨true, [], true⟩ := by decide +kernel

end Path

/-- Where the names of a location start. How deep the directory of the run lies is not
known, so there is always one more level above it. -/
inductive Anchor where
  | root
  | above (levels : Nat)
deriving DecidableEq, Repr

/-- One level further up, where there is one. -/
def Anchor.higher : Anchor → Anchor
  | root => root
  | above levels => above (levels + 1)

/-- A place in the file system, as it is seen from the directory of the run. Different paths
may lead to one location, and files are told apart by their locations. -/
structure Location where
  anchor : Anchor
  names : List String
deriving DecidableEq, Repr

namespace Location

/-- The directory of the run. -/
def here : Location := ⟨.above 0, []⟩

/-- The root of the file system. -/
def root : Location := ⟨.root, []⟩

/-- The location above another. The root is its own. -/
def parent (location : Location) : Location :=
  if location.names = [] then ⟨location.anchor.higher, []⟩
  else ⟨location.anchor, location.names.dropLast⟩

/-- The location under a name. -/
def child (location : Location) (name : String) : Location :=
  ⟨location.anchor, location.names ++ [name]⟩

/-- Where a step leads. -/
def after (location : Location) : PathStep → Location
  | .stay => location
  | .up => location.parent
  | .down name => location.child name

/-- Where the steps of a path start. -/
def start (path : Path) : Location := if path.fromRoot then root else here

/-- Where a path leads, if every step can be taken. -/
def ofPath (path : Path) : Location := path.steps.foldl after (start path)

/-- The location lies somewhere below another. -/
def isBelow (location other : Location) : Bool :=
  location.anchor = other.anchor && other.names.isPrefixOf location.names &&
    location.names ≠ other.names

end Location

end DependencyDiagram
