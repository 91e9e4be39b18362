import IncludeGate.Config
import IncludeGate.TranslationUnit

/-!
# Failures of a run

A run that fails has no verdict.  A failure names its cause and, from the
outermost to the innermost one, the activities during which it came up.
-/

namespace IncludeGate

/-- What a run is busy with. -/
inductive Activity where
  | readingConfig (path : String)
  | discoveringSearchList (program : String)
  | scanningDirectories
  | resolvingDirectory (root : String)
  | checkingHeaders
  | writingReportFile
  | writingMarkdownFile
  | writingReport (path : String)
  | writingText (path : String)
  | creatingDirectory (path : String)
  deriving DecidableEq, Repr

/-- The text shown for an activity. -/
def Activity.message : Activity → String
  | readingConfig path => s!"read config: {path}"
  | discoveringSearchList program => s!"discover system include directories of `{program}`"
  | scanningDirectories => "scan header directories"
  | resolvingDirectory root => s!"resolve directory: {root}"
  | checkingHeaders => "check headers"
  | writingReportFile => "write report json"
  | writingMarkdownFile => "write markdown"
  | writingReport path => s!"write report: {path}"
  | writingText path => s!"write text: {path}"
  | creatingDirectory path => s!"create directory: {path}"

/-- Why a root cannot be scanned. -/
inductive RootError where
  /-- There is no directory at its path. -/
  | absent (path : String)
  /-- Its path is not UTF-8, and is shown with replacement characters. -/
  | notUtf8 (path : String)
  deriving DecidableEq, Repr

/-- The text shown for a root that cannot be scanned. -/
def RootError.message : RootError → String
  | absent path => s!"not a directory: {path}"
  | notUtf8 path => s!"directory is not valid UTF-8: {path}"

/-- Why a run fails. -/
inductive FailureCause where
  | config (error : ConfigError)
  | frontend (error : FrontendError)
  | system (error : SystemError)
  /-- A root to scan that is no directory whose path is UTF-8. -/
  | notADirectory (error : RootError)
  deriving DecidableEq, Repr

/-- The texts shown for a cause.  A compiler that could not be started is followed
by the reason, although its own text ends with that already. -/
def FailureCause.messages : FailureCause → List String
  | config error => [error.message]
  | frontend error =>
      match error with
      | .spawn _ cause => [error.message, cause.message]
      | _ => [error.message]
  | system error => [error.message]
  | notADirectory error => [error.message]

/-- The failure of a run. -/
structure Failure where
  /-- What the run was busy with, the outermost activity first. -/
  activities : List Activity
  cause : FailureCause
  deriving DecidableEq, Repr

namespace Failure

/-- A failure of which only the cause is known. -/
def of (cause : FailureCause) : Failure := ⟨[], cause⟩

/-- The same failure, seen from the activity around it. -/
def during (activity : Activity) (failure : Failure) : Failure :=
  { failure with activities := activity :: failure.activities }

/-- The text shown for a failure: its activities and its cause, joined by
colons. -/
def message (failure : Failure) : String :=
  ": ".intercalate (failure.activities.map Activity.message ++ failure.cause.messages)

end Failure

end IncludeGate
