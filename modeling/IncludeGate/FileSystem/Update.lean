import IncludeGate.FileSystem
import IncludeGate.Path

/-!
# Changing a file system

Directories are made one by one, so a failure half way leaves those behind that
were made before it.  That is why `createDirectories` gives a file system also
where it fails.
-/

namespace IncludeGate.FileSystem

/-- Put a node at a place. -/
def insert (system : FileSystem) (place : List Bytes) (node : FileNode) : FileSystem :=
  match (FileNode.directory system.entries).insert place node with
  | .directory entries => { system with entries }
  | _ => system

/-- Make one directory.  Nothing may be there yet, not even a link that leads
nowhere. -/
def createDirectory (system : FileSystem) (path : String) : Except SystemError FileSystem := do
  let bytes := Utf8.ofString path
  checkPath bytes
  let names := (components bytes).filter fun name => !name.isEmpty
  match ← system.walk .find maxLinks (system.startOf bytes) (names.dropLast ++ [[]]) with
  | .free .. => .error .notFound
  | .existing directory =>
      match names.getLast? with
      | none => .error .alreadyExists
      | some name =>
          if name = currentName ∨ name = parentName then .error .alreadyExists
          else if maxNameLength < name.length then .error .nameTooLong
          else if (system.node? (directory ++ [name])).isSome then .error .alreadyExists
          else .ok (system.insert (directory ++ [name]) (.directory []))

/-- The directories that have to be made before the first of the given ones, each
of which is the directory above the one before it, and the file system once the
outermost of them that was possible is made. -/
def climb (system : FileSystem) : List String → Except SystemError (List String × FileSystem)
  | [] => .ok ([], system)
  | path :: above =>
      if Path.parent? path = none then
        .ok ([], system)
      else
        match system.createDirectory path with
        | .ok changed => .ok ([], changed)
        | .error .notFound =>
            (system.climb above).map fun (missing, changed) => (path :: missing, changed)
        | .error .alreadyExists =>
            if system.isDirectory path then .ok ([], system) else .error .alreadyExists
        | .error error => .error error

/-- Make the given directories one after another.  One that exists is good as
well. -/
def createAll (system : FileSystem) : List String → Except SystemError Unit × FileSystem
  | [] => (.ok (), system)
  | path :: rest =>
      match system.createDirectory path with
      | .ok changed => changed.createAll rest
      | .error error =>
          if error = .alreadyExists ∧ system.isDirectory path then system.createAll rest
          else (.error error, system)

/-- Make a directory and all directories above it that do not exist. -/
def createDirectories (system : FileSystem) (path : String) :
    Except SystemError Unit × FileSystem :=
  match system.climb (Path.ancestors path.length path) with
  | .error error => (.error error, system)
  | .ok (missing, changed) => changed.createAll missing.reverse

/-- Write a file, in place of the one that is there. -/
def writeBytes (system : FileSystem) (path : String) (content : Bytes) :
    Except SystemError FileSystem := do
  match ← system.locate .write (Utf8.ofString path) with
  | .free directory name => .ok (system.insert (directory ++ [name]) (.file content false))
  | .existing place =>
      match system.node? place with
      | some (.file _ executable) => .ok (system.insert place (.file content executable))
      | some .special => .ok system
      | _ => .error .isADirectory

end IncludeGate.FileSystem
