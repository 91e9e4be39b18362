import IncludeGate.Evaluation
import IncludeGate.Failure
import IncludeGate.FileSystem
import IncludeGate.Path
import IncludeGate.Settings

/-!
# Scanning directories for headers

A scan walks the directories below a root and finds the files whose names have one
of the endings of headers.  A link to a file counts as a file, but a link to a
directory is not entered, so a scan ends even where links lead in circles.
Directories with an ignored name are left out, except for the root itself.

Within a directory, files come before directories, and both are ordered by the
octets of their names.  Names that are not UTF-8 cannot be written in a report;
they are left out with everything below them.
-/

namespace IncludeGate

/-- A header that a scan has found. -/
structure HeaderFile where
  /-- The directory, as the scan came to it. -/
  directory : String
  name : String
  deriving DecidableEq, Repr

namespace HeaderFile

/-- The path of a header. -/
def path (header : HeaderFile) : String :=
  Path.join header.directory header.name

/-- The header as a candidate, with the exceptions for its place. -/
def candidate (rules : RuleSet) (header : HeaderFile) : Candidate :=
  ⟨header.path, rules.allowedFor header.directory header.path⟩

end HeaderFile

namespace Scan

/-- What decides on the order within a directory: whether an entry is a directory,
and its name. -/
structure Rank where
  isDirectory : Bool
  name : Bytes
  deriving DecidableEq, Repr

/-- Whether an entry may come before another one. -/
def Rank.le (left right : Rank) : Bool :=
  if left.isDirectory = right.isDirectory then decide (left.name ≤ right.name)
  else right.isDirectory

/-- Put what was found in an entry into what was found in others, by rank. -/
def insertByRank (entry : Rank × List HeaderFile) :
    List (Rank × List HeaderFile) → List (Rank × List HeaderFile)
  | [] => [entry]
  | first :: rest =>
      if entry.1.le first.1 then entry :: first :: rest
      else first :: insertByRank entry rest

/-- What was found in the entries of a directory, in order. -/
def inOrder (found : List (Rank × List HeaderFile)) : List HeaderFile :=
  (found.foldr insertByRank []).flatMap (·.2)

mutual

/-- The headers that an entry of a directory is or holds. -/
def headersAt (system : FileSystem) (settings : ScanSettings) (directory name : String) :
    FileNode → List HeaderFile
  | .directory entries =>
      if settings.isIgnored name then []
      else inOrder (headersIn system settings (Path.join directory name) entries)
  | _ =>
      if system.isFile (Path.join directory name) && settings.hasExtension name then
        [⟨directory, name⟩]
      else
        []

/-- The headers in the entries of a directory, each with the rank of the entry. -/
def headersIn (system : FileSystem) (settings : ScanSettings) (directory : String) :
    List (Bytes × FileNode) → List (Rank × List HeaderFile)
  | [] => []
  | (name, node) :: rest =>
      let found := match Utf8.decode? name with
        | some text => headersAt system settings directory (String.ofList text) node
        | none => []
      (⟨node.isDirectory, name⟩, found) :: headersIn system settings directory rest

end

/-- The headers below a directory. -/
def headersBelow (system : FileSystem) (settings : ScanSettings) (directory : String)
    (entries : List (Bytes × FileNode)) : List HeaderFile :=
  inOrder (headersIn system settings directory entries)

/-- A relative path as it is shown below a working directory that is not UTF-8.  Empty
and `.` components are left out, but a slash at the end stays. -/
def shownPath (system : FileSystem) (path : String) : String :=
  let names := system.workingDirectory.map Utf8.decodeLossy ++ Path.segments path.toList
  let ending := if path.toList.getLast? = some '/' then ['/'] else []
  String.ofList ('/' :: Text.join '/' names ++ ending)

/-- The absolute form of a root, up to detours.  A relative root begins at the working
directory, which has to be there still.  There is no such form where the names on the
way to the working directory are not all UTF-8, because then the path is not. -/
def absolutePath (system : FileSystem) (root : String) : Except Failure String :=
  if root.isEmpty then
    .error (.during (.resolvingDirectory root) (.of (.system .emptyPath)))
  else if Path.isAbsolute root then
    .ok root
  else if (system.node? system.workingDirectory).any FileNode.isDirectory then
    match system.workingDirectory.mapM Utf8.decode? with
    | some names => .ok (Path.join (String.ofList ('/' :: Text.join '/' names)) root)
    | none => .error (.of (.notADirectory (.notUtf8 (shownPath system root))))
  else
    .error (.during (.resolvingDirectory root) (.of (.system .notFound)))

/-- The candidates below a directory. -/
def candidatesBelow (system : FileSystem) (settings : ScanSettings) (rules : RuleSet)
    (directory : String) : Except Failure (List Candidate) :=
  match system.directory? directory with
  | none => .error (.of (.notADirectory (.absent directory)))
  | some entries =>
      .ok ((headersBelow system settings directory entries).map (HeaderFile.candidate rules))

/-- The candidates below one root.  Its absolute form is folded lexically, so that
scopes see it the way it was spelled. -/
def candidatesOfRoot (system : FileSystem) (settings : ScanSettings) (rules : RuleSet)
    (root : String) : Except Failure (List Candidate) := do
  candidatesBelow system settings rules (Path.normalize (← absolutePath system root))

/-- The candidates below all roots, in the order of the roots. -/
def candidates (system : FileSystem) (settings : ScanSettings) (rules : RuleSet) :
    Except Failure (List Candidate) :=
  (settings.roots.mapM (candidatesOfRoot system settings rules)).map List.flatten

end Scan

end IncludeGate
