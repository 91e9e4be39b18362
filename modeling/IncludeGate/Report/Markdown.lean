import IncludeGate.Report

/-!
# Reports as Markdown

A summary list comes first.  A parse failure is then listed by its diagnostics
and nothing else is said; otherwise each violating header has a section with the
edges in evidence against it.
-/

namespace IncludeGate.Report

/-- A verdict in capital letters. -/
def verdictTitle : Verdict → String
  | .pass => "PASS"
  | .parseError => "PARSE ERROR"
  | .fail => "FAIL"

/-- The title and the summary list. -/
def markdownSummary (report : Report) : String :=
  let edges := (report.violations.flatMap (·.evidence)).length
  s!"# Includeguard report\n\n- Verdict: **{verdictTitle report.verdict}**\n" ++
    s!"- Headers checked: {report.headersChecked}\n" ++
    s!"- Violations: {report.violations.length} header(s), {edges} include(s)\n\n"

/-- A list item for a diagnostic. -/
def markdownDiagnostic (diagnostic : Diagnostic) : String :=
  let severity := diagnostic.severity.label
  match diagnostic.location with
  | some location =>
      let place := s!"`{location.path}`:{location.line}:{location.column}"
      s!"- [{severity}] {place} {diagnostic.message}\n"
  | none => s!"- [{severity}] {diagnostic.message}\n"

/-- A list item for an edge in evidence. -/
def markdownEdge (edge : IncludeEdge) : String :=
  let location := edge.location
  s!"- `{edge.included}` (`{edge.includer}`:{location.line}:{location.column})\n"

/-- The section for a violating header. -/
def markdownViolation (violation : Violation) : String :=
  s!"### `{violation.header}`\n\n" ++ String.join (violation.evidence.map markdownEdge) ++ "\n"

/-- What follows the summary. -/
def markdownDetails (report : Report) : String :=
  match report.parseFailure with
  | some failure =>
      s!"## Parse failure in `{failure.header}`\n\n" ++
        String.join (failure.diagnostics.map markdownDiagnostic) ++
        "\n> Note: checking stopped at this header.\n"
  | none =>
      if report.violations.isEmpty then
        "No forbidden includes.\n"
      else
        "## Forbidden includes\n\n" ++ String.join (report.violations.map markdownViolation)

/-- A report as Markdown. -/
def markdown (report : Report) : String :=
  markdownSummary report ++ markdownDetails report

end IncludeGate.Report
