import IncludeGate.Compiler.Frontend
import IncludeGate.Compiler.SystemIncludes
import IncludeGate.Report
import IncludeGate.Scan

/-!
# Runs

A run resolves its settings, asks the compiler for its include directories, scans
for headers and evaluates them, in this order.  Whatever fails ends the run: faulty
settings before any program is started, and a root that is no directory before any
header is checked.
-/

namespace IncludeGate

/-- What a run is given. -/
structure RunInput where
  /-- The text of the configuration file, empty where there is none. -/
  configText : String
  /-- The directory in which relative directories of the configuration begin. -/
  configDirectory : String
  overrides : Overrides
  deriving DecidableEq, Repr

/-- When a run begins and ends. -/
structure TimeSpan where
  startedAt : Timestamp
  finishedAt : Timestamp
  deriving DecidableEq, Repr

/-- What a run comes to. -/
structure RunResult where
  report : Report
  settings : Settings
  deriving DecidableEq, Repr

namespace Run

variable {State : Type}

/-- The settings of a run. -/
def settings (input : RunInput) : Except Failure Settings :=
  (Settings.ofText input.configText input.overrides input.configDirectory).mapError fun error =>
    .of (.config error)

/-- Scan and evaluate with a frontend.  Every unit gets the arguments of the
settings and then the given flags. -/
def evaluate (settings : Settings) (system : FileSystem) (frontend : Frontend State)
    (systemFlags : List String) (span : TimeSpan) (state : State) :
    Except Failure Report × State :=
  match Scan.candidates system settings.scan settings.rules with
  | .error failure => (.error (failure.during .scanningDirectories), state)
  | .ok candidates =>
      match Evaluation.run frontend (settings.compiler.arguments ++ systemFlags) settings.rules
          candidates state with
      | (.error error, state) =>
          (.error (.during .checkingHeaders (.of (.frontend error))), state)
      | (.ok evaluation, state) =>
          (.ok (.ofEvaluation evaluation span.startedAt span.finishedAt), state)

/-- A whole run with a compiler. -/
def check (input : RunInput) (system : FileSystem) (compiler : Compiler State)
    (span : TimeSpan) (state : State) : Except Failure RunResult × State :=
  match settings input with
  | .error failure => (.error failure, state)
  | .ok settings =>
      let program := settings.compiler.program
      match compiler.systemFlags program state with
      | (.error error, state) =>
          (.error (.during (.discoveringSearchList program) (.of (.frontend error))), state)
      | (.ok systemFlags, state) =>
          let readText path := (system.readText path).toOption
          let (answer, state) := evaluate settings system (compiler.frontend readText program)
            systemFlags span state
          (answer.map fun report => ⟨report, settings⟩, state)

end Run

end IncludeGate
