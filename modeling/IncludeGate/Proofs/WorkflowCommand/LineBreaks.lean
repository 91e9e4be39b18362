import IncludeGate.Proofs.Text.Written
import IncludeGate.Proofs.WorkflowCommand.Escaping

/-!
# Where a command has line breaks

A runner reads commands line by line, so a line break ends a command, and what follows may begin
another one.  Three kinds of text from outside go into a command: names of headers, paths of
included files and messages are part of its text, where line breaks become codes; but the path
of the place to which it points is put in as it is.  So the line breaks of a command are those
of that path, one for one, and nothing else can break a command.
-/

namespace IncludeGate

/-- The carriage returns and line feeds of a text, in their order. -/
def lineBreaks (text : String) : List Char :=
  text.toList.filter fun character => character = '\r' ∨ character = '\n'

/-- A text without a carriage return or line feed. -/
def IsOneLine (text : String) : Prop :=
  '\r' ∉ text.toList ∧ '\n' ∉ text.toList

theorem lineBreaks_append (front back : String) :
    lineBreaks (front ++ back) = lineBreaks front ++ lineBreaks back := by
  rw [lineBreaks, String.toList_append, List.filter_append]
  rfl

theorem lineBreaks_eq_nil_iff {text : String} : lineBreaks text = [] ↔ IsOneLine text := by
  rw [lineBreaks, List.filter_eq_nil_iff, IsOneLine]
  constructor
  · intro none
    exact ⟨fun member => none _ member (by decide), fun member => none _ member (by decide)⟩
  · rintro ⟨noReturn, noFeed⟩ character member broken
    rcases of_decide_eq_true broken with rfl | rfl
    · exact noReturn member
    · exact noFeed member

instance (text : String) : Decidable (IsOneLine text) :=
  decidable_of_iff _ lineBreaks_eq_nil_iff

/-- The line breaks in the path of a place, if there is a place. -/
def pathBreaks (place : Option Location) : List Char :=
  place.elim [] fun location => lineBreaks location.path

namespace WorkflowCommand

/-! ## The parts of a command -/

theorem lineBreaks_number (number : UInt32) : lineBreaks (toString number) = [] := by
  have digits : (toString number).toList = Nat.toDigits 10 number.toNat := Nat.toList_repr
  rw [lineBreaks_eq_nil_iff, IsOneLine, digits]
  exact ⟨fun member => absurd (Text.isDigit_of_mem_toDigits member) (by decide),
    fun member => absurd (Text.isDigit_of_mem_toDigits member) (by decide)⟩

theorem lineBreaks_escaped (text : List Char) : lineBreaks (String.ofList (escape text)) = [] := by
  have escaped := isEscaped_escape text
  rw [lineBreaks_eq_nil_iff, IsOneLine, String.toList_ofList]
  exact ⟨escaped.noReturn, escaped.noFeed⟩

/-- A line or a column with its label. -/
def counted (label : String) (number : UInt32) : String :=
  if number = 0 then "" else label ++ toString number

theorem lineBreaks_counted {label : String} (oneLine : lineBreaks label = []) (number : UInt32) :
    lineBreaks (counted label number) = [] := by
  rw [counted]
  split
  · rfl
  · rw [lineBreaks_append, oneLine, lineBreaks_number, List.append_nil]

theorem placeText_eq (location : Location) :
    placeText location =
      "file=" ++ location.path ++ counted ",line=" location.line ++
        counted ",col=" location.column := rfl

theorem lineBreaks_placeText (location : Location) :
    lineBreaks (placeText location) = lineBreaks location.path := by
  have label : lineBreaks "file=" = [] := by decide
  have line : lineBreaks (counted ",line=" location.line) = [] := lineBreaks_counted (by decide) _
  have column : lineBreaks (counted ",col=" location.column) = [] :=
    lineBreaks_counted (by decide) _
  rw [placeText_eq, lineBreaks_append, lineBreaks_append, lineBreaks_append, label, line, column,
    List.append_nil, List.append_nil, List.nil_append]

theorem render_none (level text : String) :
    render level none text = "::" ++ level ++ "::" ++ String.ofList (escape text.toList) := rfl

theorem render_some (level : String) (location : Location) (text : String) :
    render level (some location) text =
      "::" ++ level ++ " " ++ placeText location ++ "::" ++
        String.ofList (escape text.toList) := rfl

/-- The line breaks of a command are those of its level and of the path to which it points. -/
theorem lineBreaks_render (level : String) (place : Option Location) (text : String) :
    lineBreaks (render level place text) = lineBreaks level ++ pathBreaks place := by
  have sign : lineBreaks "::" = [] := by decide
  have space : lineBreaks " " = [] := by decide
  cases place with
  | none =>
      simp only [render_none, lineBreaks_append, lineBreaks_escaped, sign]
      simp [pathBreaks]
  | some location =>
      simp only [render_some, lineBreaks_append, lineBreaks_escaped, lineBreaks_placeText, sign,
        space]
      simp [pathBreaks]

theorem lineBreaks_levelOf (severity : Severity) : lineBreaks (levelOf severity) = [] := by
  cases severity <;> decide

theorem lineBreaks_ofDiagnostic (header : String) (diagnostic : Diagnostic) :
    lineBreaks (ofDiagnostic header diagnostic) = pathBreaks diagnostic.location := by
  rw [ofDiagnostic, lineBreaks_render, lineBreaks_levelOf, List.nil_append]

theorem lineBreaks_ofEdge (header : String) (edge : IncludeEdge) :
    lineBreaks (ofEdge header edge) = lineBreaks edge.location.path := by
  have level : lineBreaks "error" = [] := by decide
  rw [ofEdge, lineBreaks_render, level, List.nil_append]
  rfl

end WorkflowCommand

namespace Report

open WorkflowCommand

/-! ## The commands of a report -/

/-- The places to which the commands of a report point, in the order of the commands. -/
def places (report : Report) : List (Option Location) :=
  let ofFailure := match report.parseFailure with
    | some failure => failure.diagnostics.map (·.location)
    | none => []
  ofFailure ++ report.violations.flatMap fun violation =>
    violation.evidence.map fun edge => some edge.location

theorem map_lineBreaks_workflowCommands (report : Report) :
    report.workflowCommands.map lineBreaks = report.places.map pathBreaks := by
  have ofEdges (violation : Violation) :
      (violation.evidence.map (ofEdge violation.header)).map lineBreaks =
        (violation.evidence.map fun edge => some edge.location).map pathBreaks := by
    rw [List.map_map, List.map_map]
    exact List.map_congr_left fun edge _ => lineBreaks_ofEdge violation.header edge
  rw [workflowCommands, places, List.map_append, List.map_append, List.map_flatMap,
    List.map_flatMap]
  simp only [ofEdges]
  cases report.parseFailure with
  | none => rfl
  | some failure =>
      simp only [List.map_map]
      congr 1
      apply List.map_congr_left
      intro diagnostic _
      exact lineBreaks_ofDiagnostic failure.header diagnostic

/-- The commands of a report have the line breaks of the paths to which they point, each command
those of its own path in their order.  So all commands are on one line exactly when all these
paths are, whatever characters stand in the names of headers, in the paths of included files
and in messages. -/
theorem workflowCommands_oneLine_iff (report : Report) :
    report.workflowCommands.map lineBreaks = report.places.map pathBreaks ∧
      ((∀ command ∈ report.workflowCommands, IsOneLine command) ↔
        ∀ location, some location ∈ report.places → IsOneLine location.path) := by
  have same := map_lineBreaks_workflowCommands report
  refine ⟨same, ?_⟩
  have none : (∀ breaks ∈ report.workflowCommands.map lineBreaks, breaks = []) ↔
      ∀ breaks ∈ report.places.map pathBreaks, breaks = [] := by rw [same]
  rw [List.forall_mem_map, List.forall_mem_map] at none
  simp only [← lineBreaks_eq_nil_iff, none]
  constructor
  · intro unbroken location member
    exact unbroken (some location) member
  · intro unbroken place member
    cases place with
    | none => rfl
    | some location => exact unbroken location member

/-! ## A header that takes another name -/

/-- The report on a header that goes on under a name of two lines and then includes a private
file. -/
def ofTwoLineName : Report :=
  let name := "gen\r::error::build.h"
  ofEvaluation
    ⟨.policyViolations [⟨"/w/pub/a.h", [⟨"/w/priv/x.h", name, ⟨name, 1, 1⟩⟩]⟩], 1⟩ .epoch .epoch

/-- Such an edge is one that a preprocessed text can have. -/
example :
    IncludeGraph.edges "<stdin>"
        ("# 1 \"<stdin>\"\n# 1 \"/w/pub/a.h\" 1\n# 1 \"gen\\015::error::build.h\"\n" ++
          "# 1 \"/w/priv/x.h\" 1\n").toList =
      [⟨"/w/pub/a.h", "<stdin>", ⟨"<stdin>", 1, 0⟩⟩,
        ⟨"/w/priv/x.h", "gen\r::error::build.h", ⟨"gen\r::error::build.h", 1, 0⟩⟩] := by
  decide +kernel

/-- A command may have a line break in it. -/
theorem workflowCommands_not_oneLine :
    ¬ ∀ report : Report, ∀ command ∈ report.workflowCommands, IsOneLine command := by
  intro oneLine
  have broken : ¬ ∀ command ∈ ofTwoLineName.workflowCommands, IsOneLine command := by
    decide +kernel
  exact broken (oneLine ofTwoLineName)

end Report

end IncludeGate
