import IncludeGate.CommandLine.Recording
import IncludeGate.CommandLine.Session

/-!
# The program

Carries out its command line on a recorded world, which stands as one JSON object
on the first line of the standard input, and writes the files it was asked for to
the disk.
-/

namespace IncludeGate.CommandLine

/-- Write a file of the session's file system to the disk. -/
def saveArtifact (result : SessionResult) (path : String) : IO Unit := do
  match result.system.readBytes path with
  | .error _ => return
  | .ok content =>
      match Path.parent? path with
      | some parent => unless parent.isEmpty do IO.FS.createDirAll parent
      | none => pure ()
      IO.FS.writeBinFile path (ByteArray.mk content.toArray)

/-- The files that a request asks for. -/
def artifactPaths : Request → List String
  | .run options => options.reportFile.toList ++ options.markdownFile.toList
  | _ => []

end IncludeGate.CommandLine

open IncludeGate CommandLine in
/-- Carry out the command line. -/
def main (arguments : List String) : IO UInt32 := do
  let environmentCompiler ← IO.getEnv Session.compilerVariable
  let request := Request.ofArguments environmentCompiler arguments
  let text ← match request with
    | .run _ => (← IO.getStdin).getLine
    | _ => pure "\x7b\x7d"
  match (Json.parse? text.toList).map Recording.ofJson with
  | some (.ok recording) => do
      let (result, ()) :=
        Session.perform request recording.system recording.compiler recording.span ()
      IO.print result.output
      IO.eprint result.errors
      (artifactPaths request).forM (saveArtifact result)
      return UInt32.ofNat result.exitCode
  | some (.error error) => do
      IO.eprintln ("error: not a recording: " ++ error.message?.getD "malformed value")
      return 1
  | none => do
      IO.eprintln "error: the standard input holds no JSON value"
      return 1
