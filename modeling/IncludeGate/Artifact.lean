import IncludeGate.Failure
import IncludeGate.FileSystem.Update
import IncludeGate.Report.Encoding

/-!
# Writing artifacts

Reports and summaries are written to files, with all directories above them made
first.  The file system that comes with a failure holds what was made before it.
-/

namespace IncludeGate.Artifact

/-- Make the directory of a file. -/
def makeRoom (system : FileSystem) (path : String) : Except Failure Unit × FileSystem :=
  match Path.parent? path with
  | none => (.ok (), system)
  | some parent =>
      if parent.isEmpty then (.ok (), system)
      else
        let (made, system) := system.createDirectories parent
        (made.mapError fun error =>
          .during (.creatingDirectory parent) (.of (.system error)), system)

/-- Write a file and make its directory. -/
def store (system : FileSystem) (path : String) (content : Bytes) :
    Except Failure Unit × FileSystem :=
  match makeRoom system path with
  | (.error failure, system) => (.error failure, system)
  | (.ok (), system) =>
      match system.writeBytes path content with
      | .ok changed => (.ok (), changed)
      | .error error => (.error (.of (.system error)), system)

/-- Write a text to a file. -/
def writeText (system : FileSystem) (path text : String) : Except Failure Unit × FileSystem :=
  let (written, system) := store system path (Utf8.ofString text)
  (written.mapError (.during (.writingText path)), system)

/-- Write a report to a file. -/
def writeReport (system : FileSystem) (path : String) (report : Report) :
    Except Failure Unit × FileSystem :=
  let (written, system) := store system path (Utf8.ofString report.jsonText)
  (written.mapError (.during (.writingReport path)), system)

end IncludeGate.Artifact
