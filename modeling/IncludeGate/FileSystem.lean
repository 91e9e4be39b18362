import IncludeGate.FileTree
import IncludeGate.SystemError
import IncludeGate.Text.Pieces

/-!
# File systems

A file tree together with the directory in which relative paths begin.  `walk`
follows the components of a path as an operating system does: `..` leads to the
directory that holds the current one, links are followed wherever they stand, and
of several faults the first one on the way counts.  Reading and asking for the
kind of a node are built on it; so are the changes in `FileSystem.Update`.
-/

namespace IncludeGate

open Text

/-- A file tree and a working directory. -/
structure FileSystem where
  /-- The entries of the root directory. -/
  entries : List (Bytes × FileNode)
  /-- The place in which relative paths begin. -/
  workingDirectory : List Bytes
  deriving Repr

/-- Where a path leads. -/
inductive Destination where
  /-- The place of a node, which is no link. -/
  | existing (place : List Bytes)
  /-- A name that is free in an existing directory. -/
  | free (directory : List Bytes) (name : Bytes)
  deriving DecidableEq, Repr

namespace FileSystem

/-- The octet between components. -/
def slash : UInt8 := 0x2F

/-- The component that stands for the current directory. -/
def currentName : Bytes := [0x2E]

/-- The component that stands for the directory above. -/
def parentName : Bytes := [0x2E, 0x2E]

/-- The greatest number of octets in a name. -/
def maxNameLength : Nat := 255

/-- One more than the greatest number of octets in a path. -/
def pathLimit : Nat := 4096

/-- The greatest number of links that are followed for one path. -/
def maxLinks : Nat := 40

/-- Whether a path begins at the root. -/
def isAbsolute (path : Bytes) : Bool :=
  path.head? == some slash

/-- Whether a path ends with a slash. -/
def endsWithSlash (path : Bytes) : Bool :=
  path.getLast? == some slash

/-- The components of a path.  A slash at its end counts as an empty component
there, because what stands before it has to be a directory. -/
def components (path : Bytes) : List Bytes :=
  ((pieces (· == slash) path).filter fun name => !name.isEmpty) ++
    (if endsWithSlash path then [[]] else [])

/-- The node at a place. -/
def node? (system : FileSystem) (place : List Bytes) : Option FileNode :=
  (FileNode.directory system.entries).at? place

/-- What the caller of `walk` wants to do with the node at the end. -/
inductive Purpose where
  /-- Look at what is there. -/
  | find
  /-- Write a file there. -/
  | write
  deriving DecidableEq, Repr

/-- Follow components from a directory up to the first link.  There `onLink` takes
over, given the directory in which the target of the link begins and all components
that are left.  A file cannot be written under a name with a slash after it, whatever
that name stands for. -/
def follow (system : FileSystem) (purpose : Purpose)
    (onLink : List Bytes → List Bytes → Except SystemError Destination)
    (directory : List Bytes) : List Bytes → Except SystemError Destination
  | [] => .ok (.existing directory)
  | name :: rest =>
      if name = [] ∨ name = currentName then
        follow system purpose onLink directory rest
      else if name = parentName then
        follow system purpose onLink directory.dropLast rest
      else if purpose = .write ∧ rest = [[]] then
        .error .isADirectory
      else if maxNameLength < name.length then
        .error .nameTooLong
      else
        match system.node? (directory ++ [name]) with
        | none => if rest.isEmpty then .ok (.free directory name) else .error .notFound
        | some (.directory _) => follow system purpose onLink (directory ++ [name]) rest
        | some (.link target) =>
            onLink (if isAbsolute target then [] else directory) (components target ++ rest)
        | some _ =>
            if rest.isEmpty then .ok (.existing (directory ++ [name]))
            else .error .notADirectory

/-- Follow components from a directory and at most the given number of links. -/
def walk (system : FileSystem) (purpose : Purpose) :
    Nat → List Bytes → List Bytes → Except SystemError Destination
  | 0 => follow system purpose fun _ _ => .error .tooManyLinks
  | links + 1 => follow system purpose (walk system purpose links)

/-- The faults of a path that are found before it is followed. -/
def checkPath (path : Bytes) : Except SystemError Unit :=
  if path.contains 0 then .error .zeroInPath
  else if path.isEmpty then .error .notFound
  else if pathLimit ≤ path.length then .error .nameTooLong
  else .ok ()

/-- The directory in which a path begins. -/
def startOf (system : FileSystem) (path : Bytes) : List Bytes :=
  if isAbsolute path then [] else system.workingDirectory

/-- Follow a path. -/
def locate (system : FileSystem) (purpose : Purpose) (path : Bytes) :
    Except SystemError Destination := do
  checkPath path
  system.walk purpose maxLinks (system.startOf path) (components path)

/-- The node that a path leads to, links followed. -/
def find (system : FileSystem) (path : String) : Except SystemError FileNode := do
  match ← system.locate .find (Utf8.ofString path) with
  | .existing place =>
      match system.node? place with
      | some node => .ok node
      | none => .error .notFound
  | .free .. => .error .notFound

/-- Whether a path leads to a file. -/
def isFile (system : FileSystem) (path : String) : Bool :=
  match system.find path with
  | .ok (.file ..) => true
  | _ => false

/-- The entries of the directory that a path leads to, if it leads to one. -/
def directory? (system : FileSystem) (path : String) : Option (List (Bytes × FileNode)) :=
  match system.find path with
  | .ok (.directory entries) => some entries
  | _ => none

/-- Whether a path leads to a directory. -/
def isDirectory (system : FileSystem) (path : String) : Bool :=
  (system.directory? path).isSome

/-- The content of a file. -/
def readBytes (system : FileSystem) (path : String) : Except SystemError Bytes := do
  match ← system.find path with
  | .file content _ => .ok content
  | .directory _ => .error .isADirectory
  | _ => .ok []

/-- The content of a text file, which has to be UTF-8. -/
def readText (system : FileSystem) (path : String) : Except SystemError (List Char) := do
  match Utf8.decode? (← system.readBytes path) with
  | some text => .ok text
  | none => .error .notUtf8

end FileSystem

end IncludeGate
