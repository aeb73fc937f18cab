import DependencyDiagram.CommandLine.Path
import DependencyDiagram.Ordered.Table

/-!
# Files that a run reads and writes

A run reads and writes whole texts by path. Where they are kept is left open; a file system
held in memory is one such place. It knows its files by their locations. A directory exists
wherever a file lies below it; the directory of the run, everything above it and the root
exist in any case.

The steps of a path are taken one after the other, and all but the last must lead to a
directory that exists. So a step up does not undo a step into a file or into nothing.
-/

namespace DependencyDiagram

/-- A place where texts are kept by path. The answers are given in a monad of its own, so a
run can be carried out on a real disk and be reasoned about on a table. -/
structure FileAccess (m : Type → Type) where
  read : String → m (Except Failure String)
  write : String → String → m (Except Failure Unit)

/-- Files by their locations. Directories are not kept beside them, since they follow from
where the files lie. -/
structure Directory where
  files : Table Location ByteArray

namespace Directory

/-- The file system without files. -/
def empty : Directory := ⟨Table.empty⟩

/-- Files put where their paths lead, together with the directories on the way. -/
def ofList (files : List (String × ByteArray)) : Directory :=
  ⟨Table.ofList (files.map (fun (path, content) => (Location.ofPath (Path.ofText path), content)))⟩

/-- The location is a directory. -/
def isDirectory (directory : Directory) (location : Location) : Bool :=
  location.names.isEmpty || directory.files.keys.any (fun file => file.isBelow location)

/-- What is wrong with a location that is no directory, though one is needed. -/
def obstacle (directory : Directory) (location : Location) : PathFault :=
  if directory.files.contains location then .throughFile
  else if location.names.any (fun name => Path.maxName < name.utf8ByteSize) then .tooLong
  else .absent

/-- Take steps that must each lead to a directory. -/
def walk (directory : Directory) (location : Location) : List PathStep → Except PathFault Location
  | [] => .ok location
  | step :: rest =>
    let next := location.after step
    if directory.isDirectory next then directory.walk next rest
    else .error (directory.obstacle next)

/-- The location to which the last step of a path leads. A last step that is no name leads to a
directory, in which no text can be kept. -/
def find (directory : Directory) (path : Path) : Except PathFault Location := do
  let place ← directory.walk (Location.start path) path.steps.dropLast
  match path.steps.getLast? with
  | some (.down name) => return place.child name
  | _ => throw .isDirectory

/-- The text of the file at a path. -/
def read (directory : Directory) (text : String) : Except PathFault String := do
  let path ← Path.read text
  let location ← directory.find path
  if directory.isDirectory location then throw .isDirectory
  match directory.files.get? location with
  | none => throw (directory.obstacle location)
  | some bytes =>
    if path.endsInSlash then throw .throughFile
    match String.fromUTF8? bytes with
    | some content => return content
    | none => throw .notText

/-- Put a text into the file at a path. The directory around the file must exist. -/
def write (directory : Directory) (text content : String) : Except PathFault Directory := do
  let path ← Path.read text
  let location ← directory.find path
  if path.endsInSlash || directory.isDirectory location then throw .isDirectory
  if !directory.files.contains location && directory.obstacle location = .tooLong then
    throw .tooLong
  return ⟨directory.files.put location content.toUTF8⟩

/-- A file system in memory as a place where a run's texts are kept. -/
def access : FileAccess (StateM Directory) where
  read path := do
    return ((← get).read path).mapError (fun fault => fault.failure path)
  write path text := do
    match (← get).write path text with
    | .ok after =>
      set after
      return .ok ()
    | .error fault => return .error (fault.failure path)

end Directory

end DependencyDiagram
