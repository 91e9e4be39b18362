import IncludeGate.FileSystem

/-!
# Finding programs

A name with a slash is a path.  Any other name is looked for in the directories of
a search path, where a file that may not be run does not end the search but is
remembered: if nothing else turns up, that is the reason given.
-/

namespace IncludeGate.FileSystem

/-- The fault of starting the program at a path, if there is one. -/
def checkProgram (system : FileSystem) (path : String) : Except SystemError Unit := do
  match ← system.find path with
  | .file _ true => .ok ()
  | _ => .error .permissionDenied

/-- Look for a program in the directories of a search path.  The fault is the one
to report if no directory has it. -/
def searchProgram (system : FileSystem) (program : String) (fault : SystemError) :
    List String → Except SystemError Unit
  | [] => .error fault
  | directory :: rest =>
      match system.checkProgram (directory ++ "/" ++ program) with
      | .ok () => .ok ()
      | .error .permissionDenied => searchProgram system program .permissionDenied rest
      | .error .notFound => searchProgram system program fault rest
      | .error .notADirectory => searchProgram system program fault rest
      | .error error => .error error

/-- Check that a program can be started with the given arguments. -/
def checkStart (system : FileSystem) (searchPath : List String) (program : String)
    (arguments : List String) : Except SystemError Unit :=
  if (program :: arguments).any fun text => text.toList.contains (Char.ofNat 0) then
    .error .zeroInArgument
  else if program.isEmpty then
    .error .notFound
  else if program.toList.contains '/' then
    system.checkProgram program
  else
    searchProgram system program .notFound searchPath

end IncludeGate.FileSystem
