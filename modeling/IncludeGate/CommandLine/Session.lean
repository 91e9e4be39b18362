import IncludeGate.Artifact
import IncludeGate.CommandLine.Request
import IncludeGate.Report.Markdown
import IncludeGate.Report.PlainText
import IncludeGate.Report.WorkflowCommand
import IncludeGate.Run

/-!
# Sessions

A session carries out one command line.  Findings are printed before any file is
written, so they are seen even if writing fails.  The exit code is 0 for a clean
run, 2 for violations of the rules, and 1 for everything else that goes wrong.
-/

namespace IncludeGate.CommandLine

/-- What a session leaves behind. -/
structure SessionResult where
  exitCode : Nat
  /-- Everything written to the output stream. -/
  output : String
  /-- Everything written to the error stream. -/
  errors : String
  system : FileSystem
  deriving Repr

namespace Session

variable {State : Type}

/-- The configuration file that is read if none is named. -/
def defaultConfig : String := "includeguard.toml"

/-- The environment variable that names a compiler. -/
def compilerVariable : String := "INCLUDEGUARD_COMPILER"

/-- Lines of text, each with a line feed. -/
def linesText (lines : List String) : String :=
  String.join (lines.map (· ++ "\n"))

/-- The directory in which relative directories of a configuration file begin. -/
def configDirectory (path : String) : String :=
  match Path.parent? path with
  | some parent => if parent.isEmpty then "." else parent
  | none => "."

/-- The text of the configuration file.  Only the default one may be missing. -/
def configText (system : FileSystem) (named : Option String) : Except Failure String :=
  let path := named.getD defaultConfig
  match system.readText path with
  | .ok text => .ok (String.ofList text)
  | .error error =>
      if named = none ∧ error = .notFound then .ok ""
      else .error (.during (.readingConfig path) (.of (.system error)))

/-- Write the files that were asked for. -/
def writeFiles (options : RunOptions) (system : FileSystem) (report : Report) :
    Except Failure Unit × FileSystem :=
  let (reported, system) := match options.reportFile with
    | some path =>
        let (written, system) := Artifact.writeReport system path report
        (written.mapError (Failure.during .writingReportFile), system)
    | none => (.ok (), system)
  match reported, options.markdownFile with
  | .error failure, _ => (.error failure, system)
  | .ok (), some path =>
      let (written, system) := Artifact.writeText system path report.markdown
      (written.mapError (Failure.during .writingMarkdownFile), system)
  | .ok (), none => (.ok (), system)

/-- The result of a session that failed after it had printed something. -/
def failed (format : Format) (system : FileSystem) (output errors : String)
    (failure : Failure) : SessionResult where
  exitCode := 1
  output := match format with
    | .text => output
    | .github => output ++ linesText [WorkflowCommand.ofRuntimeError failure.message]
  errors := errors ++ linesText [s!"includeguard error: {failure.message}"]
  system

/-- The result of a session whose run came to a report. -/
def reported (options : RunOptions) (system : FileSystem) (report : Report) : SessionResult :=
  let errors := linesText report.plainText
  let output := match options.format with
    | .text => ""
    | .github => linesText report.workflowCommands
  match writeFiles options system report with
  | (.ok (), system) => ⟨report.exitCode, output, errors, system⟩
  | (.error failure, system) => failed options.format system output errors failure

/-- Carry out a run. -/
def run (options : RunOptions) (system : FileSystem) (compiler : Compiler State)
    (span : TimeSpan) (state : State) : SessionResult × State :=
  match configText system options.config with
  | .error failure => (failed options.format system "" "" failure, state)
  | .ok configText =>
      let input : RunInput :=
        ⟨configText, configDirectory (options.config.getD defaultConfig), options.overrides⟩
      match Run.check input system compiler span state with
      | (.error failure, state) => (failed options.format system "" "" failure, state)
      | (.ok result, state) => (reported options system result.report, state)

/-- The help text. -/
def helpText : String :=
  linesText
    (["Enforce header inclusion policies for C and C++ source trees", "",
      "Usage: includeguard [OPTIONS] [-- COMPILER_ARGS...]", "", "Options:"] ++
      OptionName.all.map OptionName.helpLine)

/-- The line that tells the version. -/
def versionLine : String :=
  s!"{ToolMeta.current.name} {ToolMeta.current.version}"

/-- Carry out a request. -/
def perform (request : Request) (system : FileSystem) (compiler : Compiler State)
    (span : TimeSpan) (state : State) : SessionResult × State :=
  match request with
  | .run options => run options system compiler span state
  | .help => (⟨0, helpText, "", system⟩, state)
  | .version => (⟨0, linesText [versionLine], "", system⟩, state)
  | .refuse error => (⟨1, "", linesText [error.message], system⟩, state)

end Session

end IncludeGate.CommandLine
