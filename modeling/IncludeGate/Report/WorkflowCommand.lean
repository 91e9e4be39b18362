import IncludeGate.Report

/-!
# Reports as workflow commands

A workflow runner turns lines such as `::error file=a.h,line=3::text` into
remarks on a source file.  Every diagnostic of a parse failure and every edge in
evidence gives one such command.  In the text, percent signs, carriage returns
and line feeds are written as codes; a line or column of zero is left out.
-/

namespace IncludeGate

namespace WorkflowCommand

/-- How one character of the text of a command is written. -/
def escapeChar (character : Char) : List Char :=
  if character = '%' then ['%', '2', '5']
  else if character = '\r' then ['%', '0', 'D']
  else if character = '\n' then ['%', '0', 'A']
  else [character]

/-- The text of a command as it is written. -/
def escape (text : List Char) : List Char :=
  text.flatMap escapeChar

/-- Where a command points. -/
def placeText (location : Location) : String :=
  let line := if location.line = 0 then "" else s!",line={location.line}"
  let column := if location.column = 0 then "" else s!",col={location.column}"
  s!"file={location.path}{line}{column}"

/-- A command of some level for a place and a text. -/
def render (level : String) (location : Option Location) (text : String) : String :=
  let escaped := String.ofList (escape text.toList)
  match location with
  | some location => s!"::{level} {placeText location}::{escaped}"
  | none => s!"::{level}::{escaped}"

/-- The level for a severity. -/
def levelOf : Severity → String
  | .note => "notice"
  | .warning => "warning"
  | .error | .fatal => "error"

/-- The command for a diagnostic of a header. -/
def ofDiagnostic (header : String) (diagnostic : Diagnostic) : String :=
  render (levelOf diagnostic.severity) diagnostic.location
    s!"[includes.parse:parse_diagnostic] {header}: {diagnostic.message}"

/-- The command for an edge in evidence against a header. -/
def ofEdge (header : String) (edge : IncludeEdge) : String :=
  render "error" (some edge.location)
    s!"[includes.forbidden:forbidden_include] {header} includes forbidden {edge.included}"

/-- The command for a run that could not be completed. -/
def ofRuntimeError (message : String) : String :=
  render "error" none s!"[tool.runtime:runtime_error] {message}"

end WorkflowCommand

namespace Report

/-- The workflow commands of a report, those for a parse failure first. -/
def workflowCommands (report : Report) : List String :=
  let ofFailure := match report.parseFailure with
    | some failure => failure.diagnostics.map (WorkflowCommand.ofDiagnostic failure.header)
    | none => []
  ofFailure ++ report.violations.flatMap fun violation =>
    violation.evidence.map (WorkflowCommand.ofEdge violation.header)

end Report

end IncludeGate
