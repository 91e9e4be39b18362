import IncludeGate.Proofs.Compiler.Steps
import IncludeGate.Proofs.Scan.Headers
import IncludeGate.Run

/-!
# The compiler runs of a run

Before any header is looked at, a run asks the compiler once for its include
directories.  Only if these can be read and every root is a directory, the headers are
taken in the order of the scan, with the same arguments in every compiler run, up to the
first compiler run that does not end well.  Nothing else is ever attempted.
-/

namespace IncludeGate.Run

open Compiler Evaluation Scan

variable {State : Type} {system : FileSystem} {settings : Settings} {span : TimeSpan}
variable {compiler : Compiler State} {readText : String → Option (List Char)}
variable {program : String} {systemFlags : List String} {state next : State}
variable {seen : List Invocation}

/-! ## The listing of directories -/

/-- The compiler run that lists the include directories. -/
def listing (program : String) : Invocation :=
  ⟨program, ["-v", "-E", "-x", "c++", "-"], ""⟩

/-- The directories that a listing names, if it can be read. -/
def listed : Except SystemError ProcessResult → Option (List String)
  | .error _ => none
  | .ok result => SearchList.directories? (result.outputText ++ result.errorText)

theorem systemFlags_of_listed {result : Except SystemError ProcessResult}
    {directories : List String} (ran : compiler.run (listing program) state = (result, next))
    (readable : listed result = some directories) :
    compiler.systemFlags program state =
      (.ok (directories.flatMap fun directory => ["-isystem", directory]), next) := by
  change compiler.run (listingRun program) state = _ at ran
  cases result with
  | error error => contradiction
  | ok result =>
      rw [listed] at readable
      simp only [systemFlags, start_of_ok ran, Except.bind, flagsOfListing, readable,
        SearchList.flags]

theorem systemFlags_of_not_listed {result : Except SystemError ProcessResult}
    (ran : compiler.run (listing program) state = (result, next))
    (unreadable : listed result = none) :
    ∃ error, compiler.systemFlags program state = (.error error, next) := by
  change compiler.run (listingRun program) state = _ at ran
  cases result with
  | error error =>
      simp only [systemFlags, start_of_error ran]
      exact ⟨_, rfl⟩
  | ok result =>
      rw [listed] at unreadable
      simp only [systemFlags, start_of_ok ran, Except.bind, flagsOfListing, unreadable]
      cases result.status.isSuccess with
      | true => exact ⟨_, rfl⟩
      | false => exact ⟨_, rfl⟩

theorem systemFlags_recording :
    compiler.recording.systemFlags program (state, seen) =
      recordOf (compiler.systemFlags program state) (seen ++ [listing program]) := rfl

/-! ## The runs for headers -/

/-- The compiler runs for headers, up to the first that does not end well. -/
def runsFor (compiler : Compiler State) (program : String) (arguments : List String)
    (headers : List HeaderFile) (state : State) : List Invocation :=
  (Step.attempted compiler program arguments (headers.map HeaderFile.path) state).map
    (Step.invocation program arguments)

theorem evaluate_recording_of_roots
    (allRoots : ∀ root ∈ settings.scan.roots, IsRoot system root) :
    evaluate settings system (compiler.recording.frontend readText program) systemFlags span
        (state, seen) =
      recordOf
        (evaluate settings system (compiler.frontend readText program) systemFlags span state)
        (seen ++ runsFor compiler program (settings.compiler.arguments ++ systemFlags)
          (headers system settings.scan) state) := by
  rw [evaluate, evaluate, candidates_eq_ok settings.rules allRoots]
  simp only [Evaluation.run, resume_recording, List.map_map]
  cases resume (compiler.frontend readText program) (settings.compiler.arguments ++ systemFlags)
    settings.rules ((headers system settings.scan).map (HeaderFile.candidate settings.rules))
    [] 0 state with
  | mk answer last =>
      cases answer with
      | error error => rfl
      | ok evaluation => rfl

theorem evaluate_recording_of_not_roots
    (notAll : ¬ ∀ root ∈ settings.scan.roots, IsRoot system root) :
    evaluate settings system (compiler.recording.frontend readText program) systemFlags span
        (state, seen) =
      recordOf
        (evaluate settings system (compiler.frontend readText program) systemFlags span state)
        seen := by
  obtain ⟨failure, failed⟩ := candidates_eq_error settings.rules notAll
  rw [evaluate, evaluate, failed]
  rfl

/-- No run for a header has the arguments of a listing. -/
theorem arguments_ne_of_mem_runsFor {arguments : List String} {headers : List HeaderFile}
    {invocation : Invocation}
    (member : invocation ∈ runsFor compiler program arguments headers state) :
    invocation.arguments ≠ (listing program).arguments := by
  obtain ⟨step, _, rfl⟩ := List.mem_map.mp member
  intro same
  obtain ⟨header, pass⟩ := step
  cases pass with
  | checking => exact absurd (List.cons.inj same).1 (by decide)
  | preprocessing => exact absurd (List.cons.inj same).1 (by decide)

/-! ## Whole runs -/

section Check

variable {input : RunInput} {result : Except SystemError ProcessResult}
variable {directories : List String}

theorem check_recording_of_faulty {failure : Failure}
    (faulty : Run.settings input = .error failure) :
    check input system compiler.recording span (state, []) =
      recordOf (check input system compiler span state) [] := by
  simp only [check, faulty]
  rfl

theorem check_recording_of_not_listed (resolved : Run.settings input = .ok settings)
    (ran : compiler.run (listing settings.compiler.program) state = (result, next))
    (unreadable : listed result = none) :
    check input system compiler.recording span (state, []) =
      recordOf (check input system compiler span state)
        [listing settings.compiler.program] := by
  obtain ⟨error, flags⟩ := systemFlags_of_not_listed ran unreadable
  simp only [check, resolved, systemFlags_recording, flags]
  rfl

theorem check_recording_of_not_roots (resolved : Run.settings input = .ok settings)
    (ran : compiler.run (listing settings.compiler.program) state = (result, next))
    (readable : listed result = some directories)
    (notAll : ¬ ∀ root ∈ settings.scan.roots, IsRoot system root) :
    check input system compiler.recording span (state, []) =
      recordOf (check input system compiler span state)
        [listing settings.compiler.program] := by
  have flags := systemFlags_of_listed ran readable
  simp only [check, resolved, systemFlags_recording, flags,
    evaluate_recording_of_not_roots notAll]
  rfl

theorem check_recording_of_roots (resolved : Run.settings input = .ok settings)
    (ran : compiler.run (listing settings.compiler.program) state = (result, next))
    (readable : listed result = some directories)
    (allRoots : ∀ root ∈ settings.scan.roots, IsRoot system root) :
    check input system compiler.recording span (state, []) =
      recordOf (check input system compiler span state)
        (listing settings.compiler.program :: runsFor compiler settings.compiler.program
          (settings.compiler.arguments ++
            directories.flatMap fun directory => ["-isystem", directory])
          (headers system settings.scan) next) := by
  have flags := systemFlags_of_listed ran readable
  simp only [check, resolved, systemFlags_recording, flags,
    evaluate_recording_of_roots allRoots]
  rfl

theorem check_recording_of_settings (system : FileSystem) (span : TimeSpan)
    (resolved : Run.settings input = .ok settings)
    (ran : compiler.run (listing settings.compiler.program) state = (result, next)) :
    ∃ later,
      check input system compiler.recording span (state, []) =
        recordOf (check input system compiler span state)
          (listing settings.compiler.program :: later) ∧
      (∀ invocation ∈ later,
        invocation.arguments ≠ (listing settings.compiler.program).arguments) ∧
      (listed result = none ∨ (¬ ∀ root ∈ settings.scan.roots, IsRoot system root) →
        later = []) ∧
      ∀ directories, listed result = some directories →
        (∀ root ∈ settings.scan.roots, IsRoot system root) →
        later = runsFor compiler settings.compiler.program
          (settings.compiler.arguments ++
            directories.flatMap fun directory => ["-isystem", directory])
          (headers system settings.scan) next := by
  have silent : ∀ invocation ∈ ([] : List Invocation),
      invocation.arguments ≠ (listing settings.compiler.program).arguments :=
    fun _ member => absurd member List.not_mem_nil
  cases told : listed result with
  | none =>
      refine ⟨[], check_recording_of_not_listed resolved ran told, silent, fun _ => rfl, ?_⟩
      intro directories readable
      contradiction
  | some directories =>
      by_cases allRoots : ∀ root ∈ settings.scan.roots, IsRoot system root
      · refine ⟨_, check_recording_of_roots resolved ran told allRoots, ?_, ?_, ?_⟩
        · intro invocation member
          exact arguments_ne_of_mem_runsFor member
        · intro stopped
          cases stopped with
          | inl unreadable => contradiction
          | inr notAll => exact absurd allRoots notAll
        · intro others same _
          cases same
          rfl
      · refine ⟨[], check_recording_of_not_roots resolved ran told allRoots, silent,
          fun _ => rfl, ?_⟩
        intro others _ roots
        exact absurd roots allRoots

end Check

/-- The compiler runs of a whole run.  None is attempted if the settings are faulty; the
first one asks for the include directories, and none of the others does; there are no
others unless the directories are told and every root is one; and then they are the runs
for the headers of the scan, up to the first that does not end well. -/
theorem check_attempted (input : RunInput) (system : FileSystem) (compiler : Compiler State)
    (span : TimeSpan) (state : State) :
    let recorded := check input system compiler.recording span (state, [])
    let attempted := recorded.2.2
    recorded.1 = (check input system compiler span state).1 ∧
    (∀ failure, Run.settings input = .error failure → attempted = []) ∧
    ∀ settings, Run.settings input = .ok settings →
      let program := settings.compiler.program
      let (result, next) := compiler.run (listing program) state
      ∃ later, attempted = listing program :: later ∧
        (∀ invocation ∈ later, invocation.arguments ≠ (listing program).arguments) ∧
        (listed result = none ∨ (¬ ∀ root ∈ settings.scan.roots, IsRoot system root) →
          later = []) ∧
        ∀ directories, listed result = some directories →
          (∀ root ∈ settings.scan.roots, IsRoot system root) →
          later = runsFor compiler program
            (settings.compiler.arguments ++
              directories.flatMap fun directory => ["-isystem", directory])
            (headers system settings.scan) next := by
  intro recorded attempted
  cases resolved : Run.settings input with
  | error failure =>
      have both : recorded = recordOf _ [] := check_recording_of_faulty resolved
      refine ⟨congrArg Prod.fst both, ?_, nofun⟩
      intro _ _
      exact congrArg (fun outcome => outcome.2.2) both
  | ok settings =>
      obtain ⟨later, both, others, none, all⟩ :=
        check_recording_of_settings system span resolved rfl
      refine ⟨congrArg Prod.fst both, nofun, ?_⟩
      intro _ same
      cases same
      exact ⟨later, congrArg (fun outcome => outcome.2.2) both, others, none, all⟩

end IncludeGate.Run
