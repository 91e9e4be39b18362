import IncludeGate.Diagnostic
import IncludeGate.ExitStatus
import IncludeGate.IncludeGraph
import IncludeGate.SystemError

/-!
# Translation units and frontends

To check a header, a unit whose only line includes it is given to a frontend,
which answers with diagnostics and include edges or fails altogether.  A
frontend may keep a state, so its answer may depend on everything it was asked
before; `Frontend.ofAnswers` is the special case of one that does not.
-/

namespace IncludeGate

/-- The unit made up to check one header. -/
structure SyntheticUnit where
  /-- The name that the unit goes by in a compiler's output. -/
  name : String
  /-- The header to check. -/
  header : String
  /-- The source text. -/
  source : String
  /-- Arguments for the compiler. -/
  arguments : List String
  deriving DecidableEq, Repr

namespace SyntheticUnit

/-- The name of every synthetic unit: it is read from the standard input. -/
def standardName : String := "<stdin>"

/-- The unit that includes a header. -/
def forHeader (header : String) (arguments : List String) : SyntheticUnit :=
  ⟨standardName, header, s!"#include <{header}>\n", arguments⟩

end SyntheticUnit

/-- What a frontend finds in a unit. -/
structure TranslationUnit where
  diagnostics : List Diagnostic
  /-- Edges to all files included, directly or not, in the order of their
  inclusion. -/
  includes : List IncludeEdge
  deriving DecidableEq, Repr

/-- Why a frontend has no answer for a unit. -/
inductive FrontendError where
  /-- The compiler could not be started. -/
  | spawn (program : String) (cause : SystemError)
  /-- The compiler failed without a diagnostic. -/
  | failed (program : String) (status : ExitStatus) (errors : String)
  /-- The compiler listed no include directories. -/
  | noSearchList (program : String)
  deriving DecidableEq, Repr

/-- The text shown for a frontend's failure. -/
def FrontendError.message : FrontendError → String
  | spawn program cause => s!"failed to run `{program}`: {cause.message}"
  | failed program status errors =>
      s!"`{program}` exited with {status.message} without producing a translation unit: {errors}"
  | noSearchList program =>
      s!"unreadable frontend output: `{program} -v` printed no include search list"

/-- Something that reads translation units and may change its state by it. -/
structure Frontend (State : Type) where
  parse : SyntheticUnit → State → Except FrontendError TranslationUnit × State

namespace Frontend

/-- A frontend whose answer depends on the unit alone. -/
def ofAnswers {State : Type} (answer : SyntheticUnit → Except FrontendError TranslationUnit) :
    Frontend State :=
  ⟨fun unit state => (answer unit, state)⟩

/-- A frontend that also keeps the units it is given, the latest one last. -/
def recording {State : Type} (frontend : Frontend State) :
    Frontend (State × List SyntheticUnit) :=
  ⟨fun unit (state, seen) =>
    let (answer, state) := frontend.parse unit state
    (answer, (state, seen ++ [unit]))⟩

end Frontend

end IncludeGate
