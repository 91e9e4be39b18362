import IncludeGate.Artifact
import IncludeGate.Compiler
import IncludeGate.FileSystem.Program
import IncludeGate.Json.Reader
import IncludeGate.Run

/-!
# Recorded worlds

A session needs files and a compiler.  A recording is one JSON object that holds
both: texts of files by their paths, and what programs answered when they were
started.  A session on a recording gives the same findings whenever it is carried
out, without touching a disk or starting a program.

A program that no run has been recorded for is treated as missing.
-/

namespace IncludeGate

open Json

/-- A recorded run of a program. -/
structure RecordedRun where
  invocation : Invocation
  result : ProcessResult
  deriving DecidableEq, Repr

/-- Files, program runs and the time of a session. -/
structure Recording where
  /-- The working directory. -/
  directory : String
  /-- Paths of files, each with its text. -/
  files : List (String × String)
  runs : List RecordedRun
  span : TimeSpan
  deriving DecidableEq, Repr

namespace RecordedRun

/-- Read a recorded run.  All but the program may be left out. -/
def ofJson (value : Json) : Decoded RecordedRun := do
  let members ← asRecord "a run"
    [.of "program" asString, .of "arguments" (asList asString), .of "input" asString,
      .of "status" asUInt32, .of "output" asString, .of "errors" asString] 1 value
  let program ← field "program" asString members
  let arguments ← fieldD "arguments" [] (asList asString) members
  let input ← fieldD "input" "" asString members
  let status ← fieldD "status" 0 asUInt32 members
  let output ← fieldD "output" "" asString members
  let errors ← fieldD "errors" "" asString members
  return ⟨⟨program, arguments, input⟩,
    ⟨.exited status.toNat, Utf8.ofString output, Utf8.ofString errors⟩⟩

end RecordedRun

namespace Recording

/-- Read the texts of files: the paths are the keys of an object. -/
def filesOfJson : Json → Decoded (List (String × String))
  | object members => members.mapM fun (path, text) => (asString text).map (path, ·)
  | other => .error (.invalidType (describe other) "a map")

/-- Read a recording.  Everything may be left out. -/
def ofJson (value : Json) : Decoded Recording := do
  let members ← asRecord "a recording"
    [.of "directory" asString, .of "files" filesOfJson,
      .of "runs" (asList RecordedRun.ofJson), .of "started_at" Timestamp.ofJson,
      .of "finished_at" Timestamp.ofJson] 0 value
  let directory ← fieldD "directory" "/" asString members
  let files ← fieldD "files" [] filesOfJson members
  let runs ← fieldD "runs" [] (asList RecordedRun.ofJson) members
  let startedAt ← fieldD "started_at" .epoch Timestamp.ofJson members
  let finishedAt ← fieldD "finished_at" startedAt Timestamp.ofJson members
  return ⟨directory, files, runs, ⟨startedAt, finishedAt⟩⟩

/-- The file system of a recording.  A file that cannot be made is left out. -/
def system (recording : Recording) : FileSystem :=
  let directory := Path.normalize (Path.join "/" recording.directory)
  let empty : FileSystem := ⟨[], []⟩
  let place := (Path.segments directory.toList).map Utf8.encode
  let start : FileSystem := { (empty.createDirectories directory).2 with workingDirectory := place }
  recording.files.foldl (fun system (path, text) =>
    (Artifact.store system path (Utf8.ofString text)).2) start

/-- The compiler that answers as recorded. -/
def compiler {State : Type} (recording : Recording) : Compiler State :=
  .ofAnswers fun invocation =>
    match recording.runs.find? (·.invocation = invocation) with
    | some run => .ok run.result
    | none => .error .notFound

end Recording

end IncludeGate
