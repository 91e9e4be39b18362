import IncludeGate.Proofs.Evaluation.Protocol
import IncludeGate.Proofs.Evaluation.Scopes
import IncludeGate.Proofs.Scan.Headers
import IncludeGate.Proofs.Text.Utf8
import IncludeGate.Run

/-!
# When a run passes

With a frontend that answers for each unit alone, a run passes exactly when every root
is a directory and every header below is parsed and leads to nothing that is forbidden
and not excused for it.  If all headers are parsed and some of them break the rules, the
report says which ones and by which edges, and says nothing else.
-/

namespace IncludeGate.Run

open Dialogue Evaluation Scan

/-- What a frontend without state answers for each unit. -/
abbrev Answers := SyntheticUnit → Except FrontendError TranslationUnit

/-- A header is parsed without an error and without diagnostics. -/
def ParsedBy (answer : Answers) (arguments : List String) (header : HeaderFile) : Prop :=
  ∃ unit, answer (.forHeader header.path arguments) = .ok unit ∧ unit.diagnostics = []

/-- The edges found for a header, or none if it is not parsed. -/
def edgesOf (answer : Answers) (arguments : List String) (header : HeaderFile) :
    List IncludeEdge :=
  match answer (.forHeader header.path arguments) with
  | .ok unit => unit.includes
  | .error _ => []

/-- The headers with edges that break the rules, each with these edges, in the order of
the scan. -/
def breaches (rules : RuleSet) (answer : Answers) (arguments : List String)
    (headers : List HeaderFile) : List Violation :=
  (headers.filter fun header =>
      ∃ edge ∈ edgesOf answer arguments header, Breaks rules header edge).map
    fun header =>
      ⟨header.path, (edgesOf answer arguments header).filter fun edge =>
        Breaks rules header edge⟩

variable {State : Type} {settings : Settings} {system : FileSystem}
variable {frontend : Frontend State} {answer : Answers} {arguments systemFlags : List String}
variable {rules : RuleSet} {headers : List HeaderFile} {span : TimeSpan} {state : State}

theorem edgesOf_of_parsedBy {header : HeaderFile} (parsed : ParsedBy answer arguments header) :
    answer (.forHeader header.path arguments) = .ok ⟨[], edgesOf answer arguments header⟩ := by
  obtain ⟨unit, answered, clean⟩ := parsed
  rw [edgesOf, answered, ← clean]

theorem breaches_eq_nil_iff :
    breaches rules answer arguments headers = [] ↔
      ∀ header ∈ headers, ∀ edge ∈ edgesOf answer arguments header,
        ¬ Breaks rules header edge := by
  rw [breaches, List.map_eq_nil_iff, List.filter_eq_nil_iff]
  simp

/-- The violations of the candidates are the breaches of the headers. -/
theorem violationsOf_candidates :
    violationsOf rules (headers.map (HeaderFile.candidate rules))
        (headers.map fun header => ⟨[], edgesOf answer arguments header⟩) =
      breaches rules answer arguments headers := by
  rw [violationsOf, List.zip_map', List.filter_map, List.map_map, breaches]
  simp only [Function.comp_def, offences, offends_allowedFor_iff]
  rfl

theorem parses_of_parsedBy (rules : RuleSet)
    (stateless : ∀ unit state, (frontend.parse unit state).1 = answer unit)
    (allParsed : ∀ header ∈ headers, ParsedBy answer arguments header) (state : State) :
    Parses frontend arguments (headers.map (HeaderFile.candidate rules)) state
      (headers.map fun header => ⟨[], edgesOf answer arguments header⟩) where
  replies := by
    rw [answers_of_stateless stateless, unitsOf, List.map_map, List.map_map, List.map_map]
    apply List.map_congr_left
    intro header member
    exact edgesOf_of_parsedBy (allParsed header member)
  clean := by
    intro unit member
    obtain ⟨header, _, rfl⟩ := List.mem_map.mp member
    rfl

theorem parsedBy_of_parses (stateless : ∀ unit state, (frontend.parse unit state).1 = answer unit)
    {units : List TranslationUnit}
    (parses : Parses frontend arguments (headers.map (HeaderFile.candidate rules)) state units) :
    ∀ header ∈ headers, ParsedBy answer arguments header := by
  intro header member
  obtain ⟨replies, clean⟩ := parses
  rw [answers_of_stateless stateless, unitsOf, List.map_map, List.map_map] at replies
  have answered : answer (.forHeader header.path arguments) ∈ units.map Except.ok := by
    rw [← replies]
    exact List.mem_map.mpr ⟨header, member, rfl⟩
  obtain ⟨unit, given, equal⟩ := List.mem_map.mp answered
  exact ⟨unit, equal.symm, clean unit given⟩

theorem verdictOf_ofViolations_eq_pass_iff {violations : List Violation} :
    Report.verdictOf (.ofViolations violations) = .pass ↔ violations = [] := by
  cases violations <;> simp [Outcome.ofViolations, Report.verdictOf]

theorem verdictOf_ofViolations_eq_fail_iff {violations : List Violation} :
    Report.verdictOf (.ofViolations violations) = .fail ↔ violations ≠ [] := by
  cases violations <;> simp [Outcome.ofViolations, Report.verdictOf]

/-! ## The three ways in which a run goes -/

theorem evaluate_of_not_roots
    (notAll : ¬ ∀ root ∈ settings.scan.roots, IsRoot system root) :
    ∃ failure, (evaluate settings system frontend systemFlags span state).1 = .error failure := by
  obtain ⟨failure, failed⟩ := candidates_eq_error settings.rules notAll
  rw [evaluate, failed]
  exact ⟨_, rfl⟩

/-- What a run makes of the result of an evaluation. -/
def reportOn (span : TimeSpan) : Except FrontendError Evaluation → Except Failure Report
  | .error error => .error (.during .checkingHeaders (.of (.frontend error)))
  | .ok evaluation => .ok (.ofEvaluation evaluation span.startedAt span.finishedAt)

theorem evaluate_of_run {result : Except FrontendError Evaluation} {next : State}
    (allRoots : ∀ root ∈ settings.scan.roots, IsRoot system root)
    (ran : Evaluation.run frontend (settings.compiler.arguments ++ systemFlags) settings.rules
      ((Scan.headers system settings.scan).map (HeaderFile.candidate settings.rules)) state =
        (result, next)) :
    (evaluate settings system frontend systemFlags span state).1 = reportOn span result := by
  rw [evaluate, candidates_eq_ok settings.rules allRoots]
  simp only [ran]
  cases result with
  | error error => rfl
  | ok evaluation => rfl

theorem evaluate_of_parsedBy
    (stateless : ∀ unit state, (frontend.parse unit state).1 = answer unit)
    (allRoots : ∀ root ∈ settings.scan.roots, IsRoot system root)
    (allParsed : ∀ header ∈ Scan.headers system settings.scan,
      ParsedBy answer (settings.compiler.arguments ++ systemFlags) header) :
    ∃ report, (evaluate settings system frontend systemFlags span state).1 = .ok report ∧
      report.verdict = Report.verdictOf (.ofViolations report.violations) ∧
      report.violations = breaches settings.rules answer
        (settings.compiler.arguments ++ systemFlags) (Scan.headers system settings.scan) := by
  have parses := parses_of_parsedBy settings.rules stateless allParsed state
  have ran := run_of_parses settings.rules parses
  rw [violationsOf_candidates] at ran
  refine ⟨_, evaluate_of_run allRoots ran, ?_, ?_⟩
  · rw [Report.ofEvaluation, Outcome.violations_ofViolations]
  · exact Outcome.violations_ofViolations _

theorem evaluate_of_not_parsedBy
    (stateless : ∀ unit state, (frontend.parse unit state).1 = answer unit)
    (allRoots : ∀ root ∈ settings.scan.roots, IsRoot system root)
    (notAll : ¬ ∀ header ∈ Scan.headers system settings.scan,
      ParsedBy answer (settings.compiler.arguments ++ systemFlags) header)
    {report : Report}
    (reported : (evaluate settings system frontend systemFlags span state).1 = .ok report) :
    report.verdict ≠ .pass := by
  let arguments := settings.compiler.arguments ++ systemFlags
  let candidates :=
    (Scan.headers system settings.scan).map (HeaderFile.candidate settings.rules)
  cases exists_parses frontend arguments candidates state with
  | inl all =>
      obtain ⟨units, parses⟩ := all
      exact absurd (parsedBy_of_parses stateless parses) notAll
  | inr halted =>
      obtain ⟨before, candidate, after, units, split, parses, final⟩ := halted
      have ran := run_of_ends settings.rules parses final after
      rw [← split] at ran
      rw [evaluate_of_run allRoots ran] at reported
      cases reply : replyAfter frontend arguments before candidate state with
      | error error =>
          rw [reply] at reported
          contradiction
      | ok unit =>
          rw [reply] at reported
          cases reported
          exact nofun

/-! ## Verdicts -/

theorem isRoot_of_reported {report : Report}
    (reported : (evaluate settings system frontend systemFlags span state).1 = .ok report) :
    ∀ root ∈ settings.scan.roots, IsRoot system root := by
  apply Decidable.byContradiction
  intro notAll
  obtain ⟨failure, failed⟩ := evaluate_of_not_roots notAll
  exact absurd (failed.symm.trans reported) nofun

theorem parsedBy_of_pass
    (stateless : ∀ unit state, (frontend.parse unit state).1 = answer unit) {report : Report}
    (reported : (evaluate settings system frontend systemFlags span state).1 = .ok report)
    (passed : report.verdict = .pass) :
    ∀ header ∈ Scan.headers system settings.scan,
      ParsedBy answer (settings.compiler.arguments ++ systemFlags) header := by
  apply Classical.byContradiction
  intro notAll
  exact evaluate_of_not_parsedBy stateless (isRoot_of_reported reported) notAll reported passed

/-- Where a run passes, no header has an edge that breaks the rules. -/
theorem not_breaks_of_pass
    (stateless : ∀ unit state, (frontend.parse unit state).1 = answer unit) {report : Report}
    (reported : (evaluate settings system frontend systemFlags span state).1 = .ok report)
    (passed : report.verdict = .pass) :
    ∀ header ∈ Scan.headers system settings.scan,
      ∀ edge ∈ edgesOf answer (settings.compiler.arguments ++ systemFlags) header,
        ¬ Breaks settings.rules header edge := by
  obtain ⟨other, otherReported, verdict, violations⟩ :=
    evaluate_of_parsedBy stateless (isRoot_of_reported reported)
      (parsedBy_of_pass stateless reported passed)
  cases Except.ok.inj (reported.symm.trans otherReported)
  apply breaches_eq_nil_iff.mp
  rw [← violations]
  exact verdictOf_ofViolations_eq_pass_iff.mp (verdict.symm.trans passed)

theorem pass_of_not_breaks
    (stateless : ∀ unit state, (frontend.parse unit state).1 = answer unit)
    (allRoots : ∀ root ∈ settings.scan.roots, IsRoot system root)
    (allParsed : ∀ header ∈ Scan.headers system settings.scan,
      ParsedBy answer (settings.compiler.arguments ++ systemFlags) header)
    (kept : ∀ header ∈ Scan.headers system settings.scan,
      ∀ edge ∈ edgesOf answer (settings.compiler.arguments ++ systemFlags) header,
        ¬ Breaks settings.rules header edge) :
    ∃ report, (evaluate settings system frontend systemFlags span state).1 = .ok report ∧
      report.verdict = .pass := by
  obtain ⟨report, reported, verdict, violations⟩ :=
    evaluate_of_parsedBy stateless allRoots allParsed
  refine ⟨report, reported, ?_⟩
  rw [verdict, verdictOf_ofViolations_eq_pass_iff, violations]
  exact breaches_eq_nil_iff.mpr kept

theorem fail_of_breaks
    (stateless : ∀ unit state, (frontend.parse unit state).1 = answer unit)
    (allRoots : ∀ root ∈ settings.scan.roots, IsRoot system root)
    (allParsed : ∀ header ∈ Scan.headers system settings.scan,
      ParsedBy answer (settings.compiler.arguments ++ systemFlags) header)
    (broken : ∃ header ∈ Scan.headers system settings.scan,
      ∃ edge ∈ edgesOf answer (settings.compiler.arguments ++ systemFlags) header,
        Breaks settings.rules header edge) :
    ∃ report, (evaluate settings system frontend systemFlags span state).1 = .ok report ∧
      report.verdict = .fail ∧
      report.violations = breaches settings.rules answer
        (settings.compiler.arguments ++ systemFlags) (Scan.headers system settings.scan) := by
  obtain ⟨report, reported, verdict, violations⟩ :=
    evaluate_of_parsedBy stateless allRoots allParsed
  refine ⟨report, reported, ?_, violations⟩
  rw [verdict, verdictOf_ofViolations_eq_fail_iff, violations, Ne, breaches_eq_nil_iff]
  intro kept
  obtain ⟨header, member, edge, found, breaks⟩ := broken
  exact kept header member edge found breaks

/-- A run passes exactly when all is as it should be, and a run that fails says where the
rules are broken. -/
theorem evaluate_verdict (settings : Settings) (system : FileSystem)
    (frontend : Frontend State) (answer : Answers) (systemFlags : List String)
    (span : TimeSpan) (state : State)
    (stateless : ∀ unit state, (frontend.parse unit state).1 = answer unit) :
    let arguments := settings.compiler.arguments ++ systemFlags
    let headers := Scan.headers system settings.scan
    let result := (evaluate settings system frontend systemFlags span state).1
    ((∃ report, result = .ok report ∧ report.verdict = .pass) ↔
      (∀ root ∈ settings.scan.roots, IsRoot system root) ∧
      ∀ header ∈ headers, ∃ unit,
        answer (.forHeader header.path arguments) = .ok unit ∧ unit.diagnostics = [] ∧
        ∀ edge ∈ unit.includes, ∀ entry ∈ settings.rules.forbidden,
          entry.toList <:+: edge.included.toList → Excused settings.rules header entry) ∧
    ((∀ root ∈ settings.scan.roots, IsRoot system root) →
      (∀ header ∈ headers, ParsedBy answer arguments header) →
      (∃ header ∈ headers, ∃ edge ∈ edgesOf answer arguments header,
        Breaks settings.rules header edge) →
      ∃ report, result = .ok report ∧ report.verdict = .fail ∧
        report.violations = breaches settings.rules answer arguments headers) := by
  intro arguments headers result
  constructor
  · constructor
    · rintro ⟨report, reported, passed⟩
      refine ⟨isRoot_of_reported reported, ?_⟩
      intro header member
      have parsed := parsedBy_of_pass stateless reported passed header member
      refine ⟨_, edgesOf_of_parsedBy parsed, rfl, ?_⟩
      intro edge found
      apply not_breaks_iff.mp
      exact not_breaks_of_pass stateless reported passed header member edge found
    · rintro ⟨allRoots, allKept⟩
      apply pass_of_not_breaks stateless allRoots
      · intro header member
        obtain ⟨unit, answered, clean, _⟩ := allKept header member
        exact ⟨unit, answered, clean⟩
      · intro header member edge found
        obtain ⟨unit, answered, _, kept⟩ := allKept header member
        rw [edgesOf, answered] at found
        exact not_breaks_iff.mpr (kept edge found)
  · exact fail_of_breaks stateless

/-! ## A tree with two layers -/

/-- The entries of `/w`: a header, and another one in `/w/pub`. -/
def layeredEntries : List (Bytes × FileNode) :=
  [(Utf8.ofString "a.h", .file [] false),
    (Utf8.ofString "pub", .directory [(Utf8.ofString "b.h", .file [] false)])]

def layeredTree : FileSystem :=
  ⟨[(Utf8.ofString "w", .directory layeredEntries)], []⟩

/-- Private headers are forbidden, but not for headers in `pub`. -/
def layeredSettings : Settings where
  rules := ⟨.ofList ["priv/"], [⟨"pub", .ofList ["priv/"]⟩]⟩
  scan := ⟨["/w"], .empty, [".h"]⟩
  compiler := ⟨"c++", []⟩

def privateEdge : IncludeEdge :=
  ⟨"/w/priv/x.h", "/w/a.h", ⟨"/w/a.h", 1, 1⟩⟩

/-- Every header includes the private one. -/
def privateAnswer : Answers :=
  fun _ => .ok ⟨[], [privateEdge]⟩

theorem headers_layeredTree :
    Scan.headers layeredTree layeredSettings.scan = [⟨"/w", "a.h"⟩, ⟨"/w/pub", "b.h"⟩] := by
  have listed : Scan.headers layeredTree layeredSettings.scan =
      headersOfRoot layeredTree layeredSettings.scan "/w" ++ [] := rfl
  have form : IsAbsoluteForm layeredTree "/w" "/w" := .absolute (by decide)
  have root : Path.normalize "/w" = "/w" := by decide
  have found : layeredTree.directory? (Path.normalize "/w") = some layeredEntries := rfl
  have outer : layeredTree.isFile (Path.join "/w" "a.h") = true := by decide
  have inner : layeredTree.isFile (Path.join (Path.join "/w" "pub") "b.h") = true := by decide
  rw [listed, headersOfRoot_of_directory form found, root, layeredEntries]
  simp only [headersBelow, headersIn, headersAt_file, headersAt_directory,
    Utf8.decode?_ofString, String.ofList_toList, outer, inner]
  decide

theorem evaluate_layeredTree :
    ∃ report,
      (evaluate layeredSettings layeredTree (.ofAnswers privateAnswer) [] ⟨.epoch, .epoch⟩ ()).1 =
        .ok report ∧
      report.verdict = .fail ∧ report.violations = [⟨"/w/a.h", [privateEdge]⟩] := by
  have verdict := evaluate_verdict layeredSettings layeredTree (.ofAnswers privateAnswer)
    privateAnswer [] ⟨.epoch, .epoch⟩ () (fun _ _ => rfl)
  rw [headers_layeredTree] at verdict
  obtain ⟨report, reported, failed, violations⟩ := verdict.2 (by decide)
    (fun _ _ => ⟨_, rfl, rfl⟩) (by decide)
  exact ⟨report, reported, failed, violations.trans (by decide)⟩

end IncludeGate.Run
