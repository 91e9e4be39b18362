import IncludeGate.Proofs.Compiler.Steps

/-!
# What a compiler's reply is worth

The reply to a unit is made of two process results, each with a status and two streams that
may hold anything.  A header passes as clean only on the word of two successful runs that have
nothing to report.  Diagnostics count however the check ended, and they are all that counts
then; and any other failure is told with the status and the messages of the run that failed,
whatever else that run has printed.
-/

namespace IncludeGate

open Text

/-! ## Process results -/

theorem ExitStatus.isSuccess_iff {status : ExitStatus} :
    status.isSuccess = true ↔ status = .exited 0 := by
  cases status with
  | exited code => simp [isSuccess]
  | signaled signal => simp [isSuccess]

/-- Some line of the error stream is a diagnostic. -/
def ProcessResult.HasDiagnostic (result : ProcessResult) : Prop :=
  ∃ line ∈ lines (Utf8.decodeLossy result.errors), (Diagnostic.parse? line).isSome = true

/-- The failure of a program, with its status and the text of its error stream. -/
def ProcessResult.failure (result : ProcessResult) (program : String) : FrontendError :=
  .failed program result.status (String.ofList (trim (Utf8.decodeLossy result.errors)))

/-- No diagnostic is left out of a stream that has only one. -/
theorem ProcessResult.hasDiagnostic_iff {result : ProcessResult} :
    result.HasDiagnostic ↔ Diagnostic.list result.errorText ≠ [] := by
  rw [Diagnostic.list, Ne, Diagnostic.dropAttachedNotes_eq_nil, List.filterMap_eq_nil_iff]
  simp [HasDiagnostic, errorText, Option.isSome_iff_ne_none]

/-! ## Edges and their columns -/

/-- Edges that may differ in their columns, but in nothing else. -/
def SameUpToColumns (left right : List IncludeEdge) : Prop :=
  left.map (DirectiveColumn.withColumn · 0) = right.map (DirectiveColumn.withColumn · 0)

namespace DirectiveColumn

theorem sameUpToColumns_fillFrom (source : String → SourceLines)
    (kept : List (String × SourceLines)) (edges : List IncludeEdge) :
    SameUpToColumns (fillFrom source kept edges) edges := by
  induction edges generalizing kept with
  | nil => rfl
  | cons edge rest ih => exact congrArg (withColumn edge 0 :: ·) (ih _)

theorem sameUpToColumns_fill (unit : SyntheticUnit) (readText : String → Option (List Char))
    (edges : List IncludeEdge) : SameUpToColumns (fill unit readText edges) edges :=
  sameUpToColumns_fillFrom (sourceOf unit readText) [] edges

end DirectiveColumn

namespace Compiler

open Evaluation

/-! ## Replies -/

/-- A reply says of a unit what the two runs for it warrant. -/
structure Warranted (program : String) (unit : SyntheticUnit)
    (checking preprocessing : Except SystemError ProcessResult) (reply : Reply) : Prop where
  /-- No unit has both diagnostics and includes. -/
  separate : ∀ parsed, reply = .ok parsed → parsed.diagnostics = [] ∨ parsed.includes = []
  /-- There are diagnostics if the check has some, however it ended, and only then. -/
  diagnosed_iff :
    (∃ parsed, reply = .ok parsed ∧ parsed.diagnostics ≠ []) ↔
      ∃ checked, checking = .ok checked ∧ checked.HasDiagnostic
  /-- A unit without diagnostics rests on two successful runs, and its includes are those that
  the second one shows. -/
  clean : ∀ parsed, reply = .ok parsed → parsed.diagnostics = [] →
    ∃ checked preprocessed, checking = .ok checked ∧ preprocessing = .ok preprocessed ∧
      checked.status = .exited 0 ∧ preprocessed.status = .exited 0 ∧
      SameUpToColumns parsed.includes
        (IncludeGraph.edges unit.name (Utf8.decodeLossy preprocessed.output))
  /-- Two successful runs without diagnostics are enough. -/
  parsed : ∀ checked, checking = .ok checked → ¬ checked.HasDiagnostic →
    checked.status = .exited 0 →
    ∀ preprocessed, preprocessing = .ok preprocessed → preprocessed.status = .exited 0 →
    ∃ parsed, reply = .ok parsed ∧ parsed.diagnostics = []
  /-- A check that fails without a diagnostic is a failure. -/
  checkFailed : ∀ checked, checking = .ok checked → ¬ checked.HasDiagnostic →
    checked.status ≠ .exited 0 → reply = .error (checked.failure program)
  /-- So is a second run that fails, whatever it has printed. -/
  preprocessingFailed : ∀ checked, checking = .ok checked → ¬ checked.HasDiagnostic →
    checked.status = .exited 0 →
    ∀ preprocessed, preprocessing = .ok preprocessed → preprocessed.status ≠ .exited 0 →
    reply = .error (preprocessed.failure program)

section Replies

variable {readText : String → Option (List Char)} {program : String} {unit : SyntheticUnit}
variable {checking : Except SystemError ProcessResult} {checked preprocessed : ProcessResult}

theorem endsWell_checking_iff :
    Pass.checking.endsWell (.ok checked) = true ↔
      ¬ checked.HasDiagnostic ∧ checked.status = .exited 0 := by
  rw [Pass.endsWell, Bool.and_eq_true, ExitStatus.isSuccess_iff, List.isEmpty_iff,
    ProcessResult.hasDiagnostic_iff, Classical.not_not, and_comm]

/-! ### The check decides -/

theorem replyToChecking_of_diagnostic (told : checked.HasDiagnostic) :
    replyToChecking program (.ok checked) = .ok ⟨Diagnostic.list checked.errorText, []⟩ := by
  have some := ProcessResult.hasDiagnostic_iff.mp told
  rw [replyToChecking]
  split
  · contradiction
  · rfl

theorem replyToChecking_of_silent (silent : ¬ checked.HasDiagnostic) :
    replyToChecking program (.ok checked) = .error (checked.failure program) := by
  rw [ProcessResult.hasDiagnostic_iff, Classical.not_not] at silent
  rw [replyToChecking, silent]
  rfl

/-- The reply to a check that does not end well needs no second run. -/
theorem warranted_replyToChecking (badly : Pass.checking.endsWell checking = false)
    (preprocessing : Except SystemError ProcessResult) :
    Warranted program unit checking preprocessing (replyToChecking program checking) := by
  cases checking with
  | error error => constructor <;> simp [replyToChecking]
  | ok checked =>
      rw [← Bool.not_eq_true, endsWell_checking_iff] at badly
      by_cases told : checked.HasDiagnostic
      · have some := ProcessResult.hasDiagnostic_iff.mp told
        rw [replyToChecking_of_diagnostic told]
        constructor <;> simp [told, some]
      · have failed : checked.status ≠ .exited 0 := fun success => badly ⟨told, success⟩
        rw [replyToChecking_of_silent told]
        constructor <;> simp [told, failed]

/-! ### The second run decides -/

theorem replyToPreprocessing_of_success (success : preprocessed.status = .exited 0) :
    replyToPreprocessing readText program unit (.ok preprocessed) =
      .ok ⟨[], DirectiveColumn.fill unit readText
        (IncludeGraph.edges unit.name preprocessed.outputText)⟩ := by
  change unitOfPreprocessing readText program unit preprocessed = _
  rw [unitOfPreprocessing, if_pos (ExitStatus.isSuccess_iff.mpr success)]

theorem replyToPreprocessing_of_failure (failed : preprocessed.status ≠ .exited 0) :
    replyToPreprocessing readText program unit (.ok preprocessed) =
      .error (preprocessed.failure program) := by
  change unitOfPreprocessing readText program unit preprocessed = _
  rw [unitOfPreprocessing, if_neg fun success => failed (ExitStatus.isSuccess_iff.mp success)]
  rfl

/-- The reply after a check that ends well is that of the second run. -/
theorem warranted_replyToPreprocessing (well : Pass.checking.endsWell checking = true)
    (preprocessing : Except SystemError ProcessResult) :
    Warranted program unit checking preprocessing
      (replyToPreprocessing readText program unit preprocessing) := by
  cases checking with
  | error error => contradiction
  | ok checked =>
      obtain ⟨silent, success⟩ := endsWell_checking_iff.mp well
      cases preprocessing with
      | error error =>
          have reply : replyToPreprocessing readText program unit (.error error) =
              .error (.spawn program error) := rfl
          rw [reply]
          constructor <;> simp [silent, success]
      | ok preprocessed =>
          by_cases alsoSuccess : preprocessed.status = .exited 0
          · have includes := DirectiveColumn.sameUpToColumns_fill unit readText
              (IncludeGraph.edges unit.name preprocessed.outputText)
            rw [replyToPreprocessing_of_success alsoSuccess]
            constructor <;> simp [silent, success, alsoSuccess]
            exact includes
          · rw [replyToPreprocessing_of_failure alsoSuccess]
            constructor <;> simp [silent, success, alsoSuccess]

end Replies

/-! ## Parsing -/

/-- Where the check has a diagnostic, no second run counts, nor anything that can be read from
files. -/
theorem parse_of_diagnostic {State : Type} (compiler : Compiler State)
    (readText : String → Option (List Char)) (program : String) (unit : SyntheticUnit)
    (state : State) {checked : ProcessResult} (told : checked.HasDiagnostic)
    (checking : (compiler.run (checkingRun program unit) state).1 = .ok checked) :
    (compiler.parse readText program unit state).1 =
      .ok ⟨Diagnostic.list checked.errorText, []⟩ := by
  have badly : Pass.checking.endsWell (.ok checked) = false := by
    rw [← Bool.not_eq_true, endsWell_checking_iff]
    exact fun well => well.1 told
  rw [parse_of_checking (Prod.ext checking rfl) badly, replyToChecking_of_diagnostic told]

/-- Whatever the two runs for a unit leave behind, the reply says of the unit what they
warrant; and if the check has a diagnostic, the reply is the same for all compilers and all
contents of files with which the check has this result. -/
theorem parse_warranted {State : Type} (compiler : Compiler State)
    (readText : String → Option (List Char)) (program : String) (unit : SyntheticUnit)
    (state : State) :
    let checking := compiler.run (checkingRun program unit) state
    let preprocessing := compiler.run (preprocessingRun program unit) checking.2
    let reply := (compiler.parse readText program unit state).1
    Warranted program unit checking.1 preprocessing.1 reply ∧
    ∀ checked, checking.1 = .ok checked → checked.HasDiagnostic →
      ∀ (other : Compiler State) (readOther : String → Option (List Char)) (otherState : State),
        (other.run (checkingRun program unit) otherState).1 = .ok checked →
        (other.parse readOther program unit otherState).1 = reply := by
  intro checking preprocessing reply
  constructor
  · cases well : Pass.checking.endsWell checking.1 with
    | false =>
        have given : reply = replyToChecking program checking.1 :=
          congrArg Prod.fst (parse_of_checking rfl well)
        rw [given]
        exact warranted_replyToChecking well preprocessing.1
    | true =>
        have given : reply = replyToPreprocessing readText program unit preprocessing.1 :=
          congrArg Prod.fst (parse_of_preprocessing rfl well rfl)
        rw [given]
        exact warranted_replyToPreprocessing well preprocessing.1
  · intro checked checkedHere told other readOther otherState checkedThere
    rw [parse_of_diagnostic other readOther program unit otherState told checkedThere]
    exact (parse_of_diagnostic compiler readText program unit state told checkedHere).symm

/-- What a preprocessor prints that breaks off in the middle of a header. -/
def brokenOff : ProcessResult :=
  ⟨.exited 1, Utf8.ofString "# 1 \"<stdin>\"\n# 1 \"/w/a.h\" 1\n",
    Utf8.ofString " disk full\n"⟩

/-- A compiler that has nothing to report and then breaks off. -/
def breakingOff : Compiler Unit :=
  .ofAnswers fun invocation =>
    .ok (if "-E" ∈ invocation.arguments then brokenOff else ⟨.exited 0, [], []⟩)

/-- The markers that were printed make no clean unit of it. -/
theorem parse_breakingOff :
    IncludeGraph.edges "<stdin>" (Utf8.decodeLossy brokenOff.output) =
      [⟨"/w/a.h", "<stdin>", ⟨"<stdin>", 1, 0⟩⟩] ∧
    (breakingOff.parse (fun _ => none) "c++" (.forHeader "/w/a.h" []) ()).1 =
      .error (.failed "c++" (.exited 1) "disk full") := by
  have silent : ¬ (⟨.exited 0, [], []⟩ : ProcessResult).HasDiagnostic := by
    rw [ProcessResult.hasDiagnostic_iff, Classical.not_not]
    decide +kernel
  have failure : brokenOff.failure "c++" = .failed "c++" (.exited 1) "disk full" := by
    decide +kernel
  obtain ⟨warranted, -⟩ :=
    parse_warranted breakingOff (fun _ => none) "c++" (.forHeader "/w/a.h" []) ()
  have reply := warranted.preprocessingFailed _ rfl silent rfl brokenOff rfl (by decide)
  exact ⟨by decide +kernel, reply.trans (congrArg Except.error failure)⟩

end Compiler

end IncludeGate
