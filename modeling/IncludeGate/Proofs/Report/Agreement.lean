import IncludeGate.Proofs.Evaluation.Protocol
import IncludeGate.Report.PlainText
import IncludeGate.Report.WorkflowCommand
import Mathlib.Algebra.Ring.Nat

/-!
# Verdicts, exit codes and renderings that agree

Nothing in the form of a report keeps a parse failure from standing beside violations, or a
violation from having no evidence, and of such a report plain text and workflow commands would
tell different things.  No evaluation comes to one.  It ends with nothing to tell, with a
header and its diagnostics, or with headers and edges, and where it tells of a header there is
something to show for it.  From that it follows that verdict and exit code say what the report
contains, and that both renderings list the same findings in the same order.
-/

namespace IncludeGate

/-! ## Outcomes of evaluations -/

namespace Outcome

/-- Whatever an outcome tells of a header, it has something to show for it. -/
inductive IsSubstantiated : Outcome → Prop where
  | allClean : IsSubstantiated .allClean
  | parseFailed {header : String} {diagnostics : List Diagnostic} :
      diagnostics ≠ [] → IsSubstantiated (.parseFailed header diagnostics)
  | policyViolations {violations : List Violation} :
      violations ≠ [] → (∀ violation ∈ violations, violation.evidence ≠ []) →
      IsSubstantiated (.policyViolations violations)

theorem isSubstantiated_ofViolations {violations : List Violation}
    (shown : ∀ violation ∈ violations, violation.evidence ≠ []) :
    (ofViolations violations).IsSubstantiated := by
  cases violations with
  | nil => exact .allClean
  | cons first others => exact .policyViolations (List.cons_ne_nil first others) shown

end Outcome

namespace Evaluation

variable {State : Type} {frontend : Frontend State} {arguments : List String} {rules : RuleSet}
variable {candidates : List Candidate} {state : State} {evaluation : Evaluation}

theorem isSubstantiated_of_lastResult {candidate : Candidate} {checked : Nat} {reply : Reply}
    (final : reply.ends = true) (returned : lastResult candidate checked reply = .ok evaluation) :
    evaluation.outcome.IsSubstantiated := by
  cases reply with
  | error error => cases returned
  | ok unit =>
      cases returned
      apply Outcome.IsSubstantiated.parseFailed
      simpa [Reply.ends] using final

/-- Every evaluation that comes to an end has an outcome with something to show. -/
theorem isSubstantiated_of_run
    (returned : (run frontend arguments rules candidates state).1 = .ok evaluation) :
    evaluation.outcome.IsSubstantiated := by
  cases exists_parses frontend arguments candidates state with
  | inl all =>
      obtain ⟨units, parses⟩ := all
      rw [run_of_parses rules parses] at returned
      cases returned
      apply Outcome.isSubstantiated_ofViolations
      intro violation
      exact evidence_ne_nil_of_mem_violationsOf
  | inr halted =>
      obtain ⟨before, candidate, after, units, rfl, parses, final⟩ := halted
      rw [run_of_ends rules parses final after] at returned
      exact isSubstantiated_of_lastResult final returned

end Evaluation

/-! ## Reports -/

namespace Report

/-- The verdict of a report says what the report contains. -/
structure VerdictAgrees (report : Report) : Prop where
  pass_iff : report.verdict = .pass ↔ report.parseFailure = none ∧ report.violations = []
  parseError_iff : report.verdict = .parseError ↔ ∃ failure, report.parseFailure = some failure
  fail_iff : report.verdict = .fail ↔ report.violations ≠ []
  parseFailure : ∀ failure, report.parseFailure = some failure →
    failure.diagnostics ≠ [] ∧ report.violations = []
  violations : report.violations ≠ [] →
    report.parseFailure = none ∧ ∀ violation ∈ report.violations, violation.evidence ≠ []

/-- Both renderings of a report are empty for a clean one, and otherwise they go through the
same findings.  The text has a headline for each header and a line for each finding, and there
is one command for each finding. -/
structure RenderingsAgree (report : Report) : Prop where
  plainText_eq_nil_iff : report.plainText = [] ↔ report.verdict = .pass
  workflowCommands_eq_nil_iff : report.workflowCommands = [] ↔ report.verdict = .pass
  parseFailure : ∀ failure, report.parseFailure = some failure →
    report.plainText.length = 1 + failure.diagnostics.length ∧
    report.workflowCommands.length = failure.diagnostics.length ∧
    (∃ headline, report.plainText = headline :: failure.diagnostics.map diagnosticLine) ∧
    report.workflowCommands =
      failure.diagnostics.map (WorkflowCommand.ofDiagnostic failure.header)
  violations : report.parseFailure = none →
    report.plainText.length =
      (report.violations.map fun violation => 1 + violation.evidence.length).sum ∧
    report.workflowCommands.length =
      (report.violations.map fun violation => violation.evidence.length).sum ∧
    (∃ headline : Violation → String, report.plainText =
      report.violations.flatMap fun violation =>
        headline violation :: violation.evidence.map evidenceLine) ∧
    report.workflowCommands = report.violations.flatMap fun violation =>
      violation.evidence.map (WorkflowCommand.ofEdge violation.header)

variable {evaluation : Evaluation} {startedAt finishedAt : Timestamp} {report : Report}

theorem exitCode_ofEvaluation (evaluation : Evaluation) (startedAt finishedAt : Timestamp) :
    (ofEvaluation evaluation startedAt finishedAt).exitCode = evaluation.outcome.exitCode := by
  obtain ⟨outcome, checked⟩ := evaluation
  cases outcome <;> rfl

theorem verdictAgrees_ofEvaluation (substantiated : evaluation.outcome.IsSubstantiated) :
    (ofEvaluation evaluation startedAt finishedAt).VerdictAgrees := by
  obtain ⟨outcome, checked⟩ := evaluation
  cases substantiated with
  | allClean => constructor <;> simp [ofEvaluation, verdictOf, parseFailureOf, Outcome.violations]
  | parseFailed told =>
      constructor <;> simp [ofEvaluation, verdictOf, parseFailureOf, Outcome.violations, told]
  | policyViolations some shown =>
      constructor
      · simp [ofEvaluation, verdictOf, parseFailureOf, Outcome.violations, some]
      · simp [ofEvaluation, verdictOf, parseFailureOf]
      · simp [ofEvaluation, verdictOf, Outcome.violations, some]
      · simp [ofEvaluation, parseFailureOf]
      · intro _
        exact ⟨rfl, shown⟩

/-! ### Renderings -/

theorem plainText_of_parseFailure {failure : ParseFailure}
    (failed : report.parseFailure = some failure) :
    report.plainText = parseFailureLines failure := by
  rw [plainText, failed]

theorem plainText_of_violations (parsed : report.parseFailure = none) :
    report.plainText = report.violations.flatMap violationLines := by
  rw [plainText, parsed]

theorem workflowCommands_of_parseFailure {failure : ParseFailure}
    (failed : report.parseFailure = some failure) (noViolations : report.violations = []) :
    report.workflowCommands =
      failure.diagnostics.map (WorkflowCommand.ofDiagnostic failure.header) := by
  rw [workflowCommands, failed, noViolations]
  exact List.append_nil _

theorem workflowCommands_of_violations (parsed : report.parseFailure = none) :
    report.workflowCommands = report.violations.flatMap fun violation =>
      violation.evidence.map (WorkflowCommand.ofEdge violation.header) := by
  rw [workflowCommands, parsed]
  exact List.nil_append _

/-- Where every item contributes something, nothing comes only of no items. -/
theorem flatMap_eq_nil_iff_of_ne_nil {α β : Type} {lines : α → List β} {items : List α}
    (filled : ∀ item ∈ items, lines item ≠ []) : items.flatMap lines = [] ↔ items = [] := by
  cases items with
  | nil => exact iff_of_true rfl rfl
  | cons first others =>
      have some := filled first List.mem_cons_self
      simp [some]

theorem VerdictAgrees.evidence_ne_nil (agrees : report.VerdictAgrees) :
    ∀ violation ∈ report.violations, violation.evidence ≠ [] := by
  intro violation member
  exact (agrees.violations (List.ne_nil_of_mem member)).2 violation member

/-- If the verdict says what a report contains, both renderings go through the same
findings. -/
theorem VerdictAgrees.renderingsAgree (agrees : report.VerdictAgrees) :
    report.RenderingsAgree where
  plainText_eq_nil_iff := by
    rw [agrees.pass_iff]
    cases failed : report.parseFailure with
    | some failure => simp [plainText_of_parseFailure failed, parseFailureLines]
    | none =>
        rw [plainText_of_violations failed, flatMap_eq_nil_iff_of_ne_nil]
        · simp
        · intro violation _
          exact List.cons_ne_nil _ _
  workflowCommands_eq_nil_iff := by
    rw [agrees.pass_iff]
    cases failed : report.parseFailure with
    | some failure =>
        obtain ⟨told, noViolations⟩ := agrees.parseFailure failure failed
        simp [workflowCommands_of_parseFailure failed noViolations, told]
    | none =>
        rw [workflowCommands_of_violations failed, flatMap_eq_nil_iff_of_ne_nil]
        · simp
        · intro violation member
          simpa using agrees.evidence_ne_nil violation member
  parseFailure failure failed := by
    obtain ⟨-, noViolations⟩ := agrees.parseFailure failure failed
    rw [plainText_of_parseFailure failed, workflowCommands_of_parseFailure failed noViolations]
    refine ⟨?_, List.length_map _, ⟨_, rfl⟩, rfl⟩
    rw [parseFailureLines, List.length_cons, List.length_map, Nat.add_comm]
  violations parsed := by
    rw [plainText_of_violations parsed, workflowCommands_of_violations parsed]
    refine ⟨?_, ?_, ⟨_, rfl⟩, rfl⟩
    · simp [List.length_flatMap, violationLines, Nat.add_comm]
    · simp [List.length_flatMap]

/-- The report on an evaluation says by its verdict what it contains, exits as the outcome
calls for, and is rendered alike as text and as commands. -/
theorem ofEvaluation_agrees {State : Type} {frontend : Frontend State}
    {arguments : List String} {rules : RuleSet} {candidates : List Candidate} {state : State}
    (returned : (Evaluation.run frontend arguments rules candidates state).1 = .ok evaluation)
    (startedAt finishedAt : Timestamp) :
    let report := ofEvaluation evaluation startedAt finishedAt
    report.VerdictAgrees ∧ report.exitCode = evaluation.outcome.exitCode ∧
      report.RenderingsAgree := by
  have agrees : (ofEvaluation evaluation startedAt finishedAt).VerdictAgrees :=
    verdictAgrees_ofEvaluation (Evaluation.isSubstantiated_of_run returned)
  exact ⟨agrees, exitCode_ofEvaluation evaluation startedAt finishedAt, agrees.renderingsAgree⟩

/-- What is told of a header with an open brace. -/
def braceDiagnostics : List Diagnostic :=
  [⟨some ⟨"/w/b.h", 7, 2⟩, .error, "expected '\x7d'"⟩, ⟨none, .warning, "odd in 100% of cases"⟩]

/-- The first header includes a private one, and all others have an open brace. -/
def braceAnswer (unit : SyntheticUnit) : Evaluation.Reply :=
  if unit.header = "/w/a.h" then .ok ⟨[], [⟨"/w/priv/x.h", "/w/a.h", ⟨"/w/a.h", 3, 1⟩⟩]⟩
  else .ok ⟨braceDiagnostics, []⟩

/-- The violation of the first header is gone, and both diagnostics of the second one are told
in both renderings. -/
theorem ofEvaluation_braceAnswer :
    let report := ofEvaluation ⟨.parseFailed "/w/b.h" braceDiagnostics, 2⟩ .epoch .epoch
    (Evaluation.run (.ofAnswers braceAnswer) [] ⟨.ofList ["priv/"], []⟩
      [⟨"/w/a.h", .empty⟩, ⟨"/w/b.h", .empty⟩] ()).1 =
        .ok ⟨.parseFailed "/w/b.h" braceDiagnostics, 2⟩ ∧
      report.verdict = .parseError ∧ report.violations = [] ∧ report.exitCode = 1 ∧
      report.plainText.length = 3 ∧ report.workflowCommands.length = 2 := by
  intro report
  have returned : (Evaluation.run (.ofAnswers braceAnswer) [] ⟨.ofList ["priv/"], []⟩
      [⟨"/w/a.h", .empty⟩, ⟨"/w/b.h", .empty⟩] ()).1 =
        .ok ⟨.parseFailed "/w/b.h" braceDiagnostics, 2⟩ := by
    rfl
  obtain ⟨verdict, exitCode, renderings⟩ := ofEvaluation_agrees returned .epoch .epoch
  have failed : report.parseFailure = some ⟨"/w/b.h", braceDiagnostics⟩ := rfl
  obtain ⟨textLength, commandsLength, -⟩ := renderings.parseFailure _ failed
  exact ⟨returned, verdict.parseError_iff.mpr ⟨_, failed⟩, (verdict.parseFailure _ failed).2,
    exitCode, textLength, commandsLength⟩

end Report

end IncludeGate
