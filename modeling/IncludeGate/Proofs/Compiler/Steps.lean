import IncludeGate.Compiler.Frontend
import IncludeGate.Proofs.Evaluation.Protocol

/-!
# The runs that a header costs

A header is checked and then preprocessed, by two runs with the same arguments and the
same input.  Each run either ends well, so that the next one follows, or ends the whole
evaluation.  The reply to the unit of a header goes on exactly when both runs end well.
-/

namespace IncludeGate.Compiler

open Dialogue Evaluation

/-- One of the two runs for a header. -/
inductive Pass where
  /-- The run that gives the diagnostics. -/
  | checking
  /-- The run that gives the includes. -/
  | preprocessing
  deriving DecidableEq, Repr

namespace Pass

/-- What makes a compiler do this run. -/
def options : Pass → List String
  | checking => ["-x", "c++", "-fsyntax-only", "-fdiagnostics-color=never"]
  | preprocessing => ["-x", "c++", "-E"]

/-- A run ends well if it is successful and, for a check, has nothing to tell. -/
def endsWell : Pass → Except SystemError ProcessResult → Bool
  | _, .error _ => false
  | checking, .ok result =>
      result.status.isSuccess && (Diagnostic.list result.errorText).isEmpty
  | preprocessing, .ok result => result.status.isSuccess

end Pass

/-- A run for a header. -/
structure Step where
  header : String
  pass : Pass
  deriving DecidableEq, Repr

namespace Step

/-- How the compiler is started. -/
def invocation (program : String) (arguments : List String) (step : Step) : Invocation :=
  ⟨program, step.pass.options ++ arguments ++ ["-"], "#include <" ++ step.header ++ ">\n"⟩

/-- Run the compiler, and tell whether the run ends well. -/
def run {State : Type} (compiler : Compiler State) (program : String)
    (arguments : List String) (step : Step) (state : State) : Bool × State :=
  let (result, state) := compiler.run (step.invocation program arguments) state
  (step.pass.endsWell result, state)

/-- The runs for headers if all of them end well. -/
def schedule (headers : List String) : List Step :=
  headers.flatMap fun header => [⟨header, .checking⟩, ⟨header, .preprocessing⟩]

/-- The runs for headers, up to the first that does not end well. -/
def attempted {State : Type} (compiler : Compiler State) (program : String)
    (arguments : List String) (headers : List String) (state : State) : List Step :=
  asked (run compiler program arguments) (fun endsWell => !endsWell) (schedule headers) state

end Step

variable {State : Type} {compiler : Compiler State} {readText : String → Option (List Char)}
variable {program header : String} {arguments : List String} {state : State}
variable {checked preprocessed : Except SystemError ProcessResult} {next last : State}

theorem start_of_run {invocation : Invocation}
    (ran : compiler.run invocation state = (checked, next)) :
    compiler.start invocation state = (checked.mapError (.spawn invocation.program), next) := by
  rw [start, ran]

theorem start_of_error {invocation : Invocation} {error : SystemError}
    (ran : compiler.run invocation state = (.error error, next)) :
    compiler.start invocation state = (.error (.spawn invocation.program error), next) :=
  start_of_run ran

theorem start_of_ok {invocation : Invocation} {result : ProcessResult}
    (ran : compiler.run invocation state = (.ok result, next)) :
    compiler.start invocation state = (.ok result, next) :=
  start_of_run ran

/-! ## Replies -/

/-- The reply to a unit whose check does not end well. -/
def replyToChecking (program : String) : Except SystemError ProcessResult → Reply
  | .error error => .error (.spawn program error)
  | .ok result =>
      match Diagnostic.list result.errorText with
      | [] => .error (.ofResult program result)
      | diagnostics => .ok ⟨diagnostics, []⟩

/-- The reply to a unit whose check ends well. -/
def replyToPreprocessing (readText : String → Option (List Char)) (program : String)
    (unit : SyntheticUnit) (result : Except SystemError ProcessResult) : Reply :=
  (result.mapError (.spawn program)).bind (unitOfPreprocessing readText program unit)

theorem ends_replyToChecking (program : String) (badly : Pass.checking.endsWell checked = false) :
    (replyToChecking program checked).ends = true := by
  cases checked with
  | error error => rfl
  | ok result =>
      rw [replyToChecking]
      split
      · rfl
      · rename_i some
        simpa [Reply.ends] using some

theorem ends_replyToPreprocessing (unit : SyntheticUnit) :
    (replyToPreprocessing readText program unit preprocessed).ends =
      !Pass.preprocessing.endsWell preprocessed := by
  cases preprocessed with
  | error error => rfl
  | ok result =>
      change Reply.ends (unitOfPreprocessing readText program unit result) = _
      rw [unitOfPreprocessing]
      cases success : result.status.isSuccess with
      | true => simp [Pass.endsWell, Reply.ends, success]
      | false => simp [Pass.endsWell, Reply.ends, success]

theorem parse_of_checking {unit : SyntheticUnit}
    (checking : compiler.run (checkingRun program unit) state = (checked, next))
    (badly : Pass.checking.endsWell checked = false) :
    compiler.parse readText program unit state = (replyToChecking program checked, next) := by
  cases checked with
  | error error =>
      simp only [parse, start_of_error checking]
      rfl
  | ok result =>
      simp only [Pass.endsWell] at badly
      cases told : Diagnostic.list result.errorText with
      | nil =>
          have failed : result.status.isSuccess = false := by simpa [told] using badly
          simp only [parse, start_of_ok checking, told, failed, replyToChecking]
          rfl
      | cons first rest =>
          simp only [parse, start_of_ok checking, told, replyToChecking]

theorem parse_of_preprocessing {unit : SyntheticUnit}
    (checking : compiler.run (checkingRun program unit) state = (checked, next))
    (well : Pass.checking.endsWell checked = true)
    (preprocessing : compiler.run (preprocessingRun program unit) next = (preprocessed, last)) :
    compiler.parse readText program unit state =
      (replyToPreprocessing readText program unit preprocessed, last) := by
  cases checked with
  | error error => contradiction
  | ok result =>
      simp only [Pass.endsWell, Bool.and_eq_true, List.isEmpty_iff] at well
      obtain ⟨success, silent⟩ := well
      simp only [parse, start_of_ok checking, silent, success, start_of_run preprocessing]
      rfl

/-! ## The runs that are attempted -/

/-- A result and a state, with the runs that were attempted. -/
def recordOf {Result : Type} (outcome : Result × State) (attempted : List Invocation) :
    Result × State × List Invocation :=
  (outcome.1, outcome.2, attempted)

theorem Step.run_eq {step : Step}
    (started : compiler.run (step.invocation program arguments) state = (checked, next)) :
    step.run compiler program arguments state = (step.pass.endsWell checked, next) := by
  rw [Step.run, started]

theorem attempted_nil : Step.attempted compiler program arguments [] state = [] := rfl

theorem attempted_cons_of_checking
    (first : Step.run compiler program arguments ⟨header, .checking⟩ state = (false, next))
    (headers : List String) :
    Step.attempted compiler program arguments (header :: headers) state =
      [⟨header, .checking⟩] := by
  apply asked_cons_of_ends
  rw [first]
  rfl

theorem attempted_cons_of_preprocessing
    (first : Step.run compiler program arguments ⟨header, .checking⟩ state = (true, next))
    (second : Step.run compiler program arguments ⟨header, .preprocessing⟩ next = (false, last))
    (headers : List String) :
    Step.attempted compiler program arguments (header :: headers) state =
      [⟨header, .checking⟩, ⟨header, .preprocessing⟩] := by
  rw [Step.attempted, Step.schedule, List.flatMap_cons, List.cons_append, List.cons_append,
    asked_cons_of_not_ends (by rw [first]; rfl), first, asked_cons_of_ends (by rw [second]; rfl)]

theorem attempted_cons_of_endsWell
    (first : Step.run compiler program arguments ⟨header, .checking⟩ state = (true, next))
    (second : Step.run compiler program arguments ⟨header, .preprocessing⟩ next = (true, last))
    (headers : List String) :
    Step.attempted compiler program arguments (header :: headers) state =
      ⟨header, .checking⟩ :: ⟨header, .preprocessing⟩ ::
        Step.attempted compiler program arguments headers last := by
  rw [Step.attempted, Step.schedule, List.flatMap_cons, List.cons_append, List.cons_append,
    asked_cons_of_not_ends (by rw [first]; rfl), first,
    asked_cons_of_not_ends (by rw [second]; rfl), second]
  rfl

/-- Parsing the unit of a header attempts one run or both, recorded or not.  They are
the first runs that are attempted for a list of headers that begins with this one, and
the only ones if the reply ends the evaluation. -/
theorem parse_attempts (compiler : Compiler State) (readText : String → Option (List Char))
    (program : String) (arguments : List String) (header : String) (state : State) :
    ∃ (reply : Reply) (last : State) (steps : List Step),
      (compiler.frontend readText program).parse (.forHeader header arguments) state =
        (reply, last) ∧
      (∀ seen, (compiler.recording.frontend readText program).parse
          (.forHeader header arguments) (state, seen) =
        (reply, last, seen ++ steps.map (Step.invocation program arguments))) ∧
      ∀ headers, Step.attempted compiler program arguments (header :: headers) state =
        steps ++ if reply.ends then [] else Step.attempted compiler program arguments headers last
    := by
  let check := Step.invocation program arguments ⟨header, .checking⟩
  let preprocess := Step.invocation program arguments ⟨header, .preprocessing⟩
  cases checking : compiler.run check state with
  | mk checked next =>
  have recordedChecking (seen : List Invocation) :
      compiler.recording.run check (state, seen) = (checked, next, seen ++ [check]) := by
    simp only [recording, checking]
  have first := Step.run_eq checking
  cases well : Pass.checking.endsWell checked with
  | false =>
      have final := ends_replyToChecking program well
      rw [well] at first
      refine ⟨_, next, [⟨header, .checking⟩], parse_of_checking checking well, ?_, ?_⟩
      · intro seen
        exact parse_of_checking (recordedChecking seen) well
      · intro headers
        rw [attempted_cons_of_checking first, final]
        rfl
  | true =>
      cases preprocessing : compiler.run preprocess next with
      | mk preprocessed last =>
      have recordedPreprocessing (seen : List Invocation) :
          compiler.recording.run preprocess (next, seen ++ [check]) =
            (preprocessed, last, seen ++ [check] ++ [preprocess]) := by
        simp only [recording, preprocessing]
      have second := Step.run_eq preprocessing
      rw [well] at first
      refine ⟨_, last, [⟨header, .checking⟩, ⟨header, .preprocessing⟩],
        parse_of_preprocessing checking well preprocessing, ?_, ?_⟩
      · intro seen
        rw [List.map_cons, List.map_singleton, List.append_cons]
        exact parse_of_preprocessing (recordedChecking seen) well (recordedPreprocessing seen)
      · intro headers
        rw [ends_replyToPreprocessing]
        cases alsoWell : Pass.preprocessing.endsWell preprocessed with
        | false =>
            rw [alsoWell] at second
            exact attempted_cons_of_preprocessing first second headers
        | true =>
            rw [alsoWell] at second
            exact attempted_cons_of_endsWell first second headers

/-- An evaluation with a compiler attempts the runs for its headers up to the first that
does not end well, and a record of them changes nothing. -/
theorem resume_recording {rules : RuleSet} (candidates : List Candidate)
    (found : List Violation) (number : Nat) (state : State) (seen : List Invocation) :
    resume (compiler.recording.frontend readText program) arguments rules candidates found
        number (state, seen) =
      recordOf (resume (compiler.frontend readText program) arguments rules candidates found
          number state)
        (seen ++ (Step.attempted compiler program arguments (candidates.map Candidate.path)
          state).map (Step.invocation program arguments)) := by
  induction candidates generalizing found number state seen with
  | nil =>
      rw [resume, resume, List.map_nil, attempted_nil, List.map_nil, List.append_nil]
      rfl
  | cons candidate rest ih =>
      obtain ⟨reply, last, steps, plain, recorded, attempted⟩ :=
        parse_attempts compiler readText program arguments candidate.path state
      rw [List.map_cons, attempted]
      cases ending : reply.ends with
      | true =>
          rw [resume_cons_of_ends (recorded seen) ending, resume_cons_of_ends plain ending,
            if_pos rfl, List.append_nil]
          rfl
      | false =>
          obtain ⟨unit, rfl, clean⟩ := Reply.exists_of_not_ends ending
          rw [resume_cons_of_clean (recorded seen) clean, resume_cons_of_clean plain clean, ih,
            if_neg Bool.false_ne_true, List.map_append, List.append_assoc]

end IncludeGate.Compiler
