import IncludeGate.Json.Decode
import IncludeGate.Report

/-!
# Reports as JSON

`Report.toJson` writes the fields of every record in the order of their
declaration and leaves out a missing location or parse failure;
`Report.ofJson` reads a report back.  The reader is forward compatible: it ignores
members that it does not know.
-/

namespace IncludeGate

open Json

/-! ## Writing -/

/-- A location as JSON. -/
def Location.toJson (location : Location) : Json :=
  object [("path", string location.path), ("line", integer location.line.toNat),
    ("col", integer location.column.toNat)]

/-- The name of a severity in a report. -/
def Severity.reportName : Severity → String
  | note => "note"
  | warning => "warning"
  | error => "error"
  | fatal => "fatal"

/-- A diagnostic as JSON. -/
def Diagnostic.toJson (diagnostic : Diagnostic) : Json :=
  let location := match diagnostic.location with
    | some location => [("location", location.toJson)]
    | none => []
  object (location ++ [("severity", string diagnostic.severity.reportName),
    ("message", string diagnostic.message)])

/-- An edge as JSON. -/
def IncludeEdge.toJson (edge : IncludeEdge) : Json :=
  object [("included", string edge.included), ("includer", string edge.includer),
    ("location", edge.location.toJson)]

/-- A violation as JSON. -/
def Violation.toJson (violation : Violation) : Json :=
  object [("header", string violation.header),
    ("evidence", array (violation.evidence.map IncludeEdge.toJson))]

/-- A parse failure as JSON. -/
def ParseFailure.toJson (failure : ParseFailure) : Json :=
  object [("header", string failure.header),
    ("diagnostics", array (failure.diagnostics.map Diagnostic.toJson))]

/-- A tool as JSON. -/
def ToolMeta.toJson (tool : ToolMeta) : Json :=
  object [("name", string tool.name), ("version", string tool.version)]

/-- The name of a verdict in a report. -/
def Verdict.reportName : Verdict → String
  | pass => "pass"
  | parseError => "parse_error"
  | fail => "fail"

/-- A timestamp as JSON. -/
def Timestamp.toJson (timestamp : Timestamp) : Json :=
  string (String.ofList timestamp.text)

/-- A report as JSON. -/
def Report.toJson (report : Report) : Json :=
  let parseFailure := match report.parseFailure with
    | some failure => [("parse_failure", failure.toJson)]
    | none => []
  object ([("schema", string report.schema), ("tool", report.tool.toJson),
    ("started_at", report.startedAt.toJson), ("finished_at", report.finishedAt.toJson),
    ("verdict", string report.verdict.reportName),
    ("headers_checked", integer report.headersChecked.toNat)] ++ parseFailure ++
    [("violations", array (report.violations.map Violation.toJson))])

/-- The text of a report file. -/
def Report.jsonText (report : Report) : String :=
  String.ofList report.toJson.pretty

/-! ## Reading -/

/-- Read a location. -/
def Location.ofJson (value : Json) : Decoded Location := do
  let members ← asRecord "struct Location"
    [.of "path" asString, .of "line" asUInt32, .of "col" asUInt32] 3 value
  let path ← field "path" asString members
  let line ← field "line" asUInt32 members
  let column ← field "col" asUInt32 members
  return ⟨path, line, column⟩

/-- Read a severity. -/
def Severity.ofJson : Json → Decoded Severity :=
  asVariant (all.map fun severity => (severity.reportName, severity))

/-- Read a diagnostic. -/
def Diagnostic.ofJson (value : Json) : Decoded Diagnostic := do
  let members ← asRecord "struct Diagnostic"
    [.of "location" (asOption Location.ofJson), .of "severity" Severity.ofJson,
      .of "message" asString] 3 value
  let location ← fieldD "location" none (asOption Location.ofJson) members
  let severity ← field "severity" Severity.ofJson members
  let message ← field "message" asString members
  return ⟨location, severity, message⟩

/-- Read an edge. -/
def IncludeEdge.ofJson (value : Json) : Decoded IncludeEdge := do
  let members ← asRecord "struct IncludeEdge"
    [.of "included" asString, .of "includer" asString, .of "location" Location.ofJson] 3 value
  let included ← field "included" asString members
  let includer ← field "includer" asString members
  let location ← field "location" Location.ofJson members
  return ⟨included, includer, location⟩

/-- Read a violation. -/
def Violation.ofJson (value : Json) : Decoded Violation := do
  let members ← asRecord "struct Violation"
    [.of "header" asString, .of "evidence" (asList IncludeEdge.ofJson)] 2 value
  let header ← field "header" asString members
  let evidence ← field "evidence" (asList IncludeEdge.ofJson) members
  return ⟨header, evidence⟩

/-- Read a parse failure. -/
def ParseFailure.ofJson (value : Json) : Decoded ParseFailure := do
  let members ← asRecord "struct ParseFailureReport"
    [.of "header" asString, .of "diagnostics" (asList Diagnostic.ofJson)] 2 value
  let header ← field "header" asString members
  let diagnostics ← field "diagnostics" (asList Diagnostic.ofJson) members
  return ⟨header, diagnostics⟩

/-- Read a tool. -/
def ToolMeta.ofJson (value : Json) : Decoded ToolMeta := do
  let members ← asRecord "struct ToolMeta"
    [.of "name" asString, .of "version" asString] 2 value
  let name ← field "name" asString members
  let version ← field "version" asString members
  return ⟨name, version⟩

/-- Read a verdict. -/
def Verdict.ofJson : Json → Decoded Verdict :=
  asVariant ([pass, parseError, fail].map fun verdict => (verdict.reportName, verdict))

/-- Read a timestamp. -/
def Timestamp.ofJson : Json → Decoded Timestamp
  | string text =>
      match Timestamp.parse? text.toList with
      | some timestamp => .ok timestamp
      | none => .error .malformed
  | other => .error (.invalidType other.describe "an RFC3339-formatted `OffsetDateTime`")

/-- The fields of a report. -/
def Report.fields : List Field :=
  [.of "schema" asString, .of "tool" ToolMeta.ofJson, .of "started_at" Timestamp.ofJson,
    .of "finished_at" Timestamp.ofJson, .of "verdict" Verdict.ofJson,
    .of "headers_checked" asUInt32, .of "parse_failure" (asOption ParseFailure.ofJson),
    .of "violations" (asList Violation.ofJson)]

/-- Read a report. -/
def Report.ofJson (value : Json) : Decoded Report := do
  let members ← asRecord "struct IncludeguardReport" fields 6 value
  let schema ← field "schema" asString members
  let tool ← field "tool" ToolMeta.ofJson members
  let startedAt ← field "started_at" Timestamp.ofJson members
  let finishedAt ← field "finished_at" Timestamp.ofJson members
  let verdict ← field "verdict" Verdict.ofJson members
  let headersChecked ← field "headers_checked" asUInt32 members
  let parseFailure ← fieldD "parse_failure" none (asOption ParseFailure.ofJson) members
  let violations ← fieldD "violations" [] (asList Violation.ofJson) members
  return ⟨schema, tool, startedAt, finishedAt, verdict, headersChecked, parseFailure,
    violations⟩

end IncludeGate
