import IncludeGate.Report

/-!
# Reports as plain text

A parse failure gives a headline and one line a diagnostic; otherwise each
violation gives a headline and one line for each edge in evidence.  The text of a
clean report is empty.
-/

namespace IncludeGate.Report

/-- A place and what is there. -/
def placeLine (path : String) (location : Location) (what : String) : String :=
  s!"  \"{path}\": line {location.line}, column {location.column}: {what}"

/-- The line for a diagnostic. -/
def diagnosticLine (diagnostic : Diagnostic) : String :=
  match diagnostic.location with
  | some location => placeLine location.path location diagnostic.message
  | none => s!"  {diagnostic.severity.label}: {diagnostic.message}"

/-- The line for an edge in evidence. -/
def evidenceLine (edge : IncludeEdge) : String :=
  placeLine edge.includer edge.location edge.included

/-- The lines for a parse failure. -/
def parseFailureLines (failure : ParseFailure) : List String :=
  s!"Error parsing \"{failure.header}\":" :: failure.diagnostics.map diagnosticLine

/-- The lines for a violation. -/
def violationLines (violation : Violation) : List String :=
  s!"Forbidden include(s) in \"{violation.header}\":" :: violation.evidence.map evidenceLine

/-- The lines of a report. -/
def plainText (report : Report) : List String :=
  match report.parseFailure with
  | some failure => parseFailureLines failure
  | none => report.violations.flatMap violationLines

end IncludeGate.Report
