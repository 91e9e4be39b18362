import IncludeGate.Evaluation
import IncludeGate.Timestamp

/-!
# Reports

A report records one run: when it took place, its verdict and everything that led
to the verdict.  The exit code of a run is that of its verdict.
-/

namespace IncludeGate

/-- The verdict on a run. -/
inductive Verdict where
  | pass
  | parseError
  | fail
  deriving DecidableEq, Repr

/-- The exit code for a verdict. -/
def Verdict.exitCode : Verdict → Nat
  | pass => 0
  | parseError => 1
  | fail => 2

/-- The program that made a report. -/
structure ToolMeta where
  name : String
  version : String
  deriving DecidableEq, Repr

/-- This program. -/
def ToolMeta.current : ToolMeta := ⟨"includeguard", "0.1.0"⟩

/-- The header that ended a run, with all that was reported for it. -/
structure ParseFailure where
  header : String
  diagnostics : List Diagnostic
  deriving DecidableEq, Repr

/-- The record of a run. -/
structure Report where
  /-- Which form of report this is. -/
  schema : String
  tool : ToolMeta
  startedAt : Timestamp
  finishedAt : Timestamp
  verdict : Verdict
  /-- Headers handed to the frontend. -/
  headersChecked : UInt32
  parseFailure : Option ParseFailure
  violations : List Violation
  deriving DecidableEq, Repr

namespace Report

/-- The form of report that this program writes. -/
def currentSchema : String := "includeguard.report.v1"

/-- The verdict that an outcome amounts to. -/
def verdictOf : Outcome → Verdict
  | .allClean => .pass
  | .parseFailed .. => .parseError
  | .policyViolations _ => .fail

/-- The parse failure of an outcome, if it is one. -/
def parseFailureOf : Outcome → Option ParseFailure
  | .parseFailed header diagnostics => some ⟨header, diagnostics⟩
  | _ => none

/-- The report on an evaluation that began and ended at the given times. -/
def ofEvaluation (evaluation : Evaluation) (startedAt finishedAt : Timestamp) : Report where
  schema := currentSchema
  tool := .current
  startedAt
  finishedAt
  verdict := verdictOf evaluation.outcome
  headersChecked := UInt32.ofNat evaluation.headersChecked
  parseFailure := parseFailureOf evaluation.outcome
  violations := evaluation.outcome.violations

/-- The exit code for a report. -/
def exitCode (report : Report) : Nat :=
  report.verdict.exitCode

end Report

end IncludeGate
