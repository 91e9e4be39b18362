import IncludeGate.Compiler
import IncludeGate.DirectiveColumn

/-!
# A compiler as a frontend

A unit costs up to two runs.  The first one only checks it and gives the
diagnostics; if there are none, the second one preprocesses it and gives the
includes.  So a unit with diagnostics has no includes, and a unit without any
comes from two runs that ended well.
-/

namespace IncludeGate.Compiler

variable {State : Type}

/-- The run that checks a unit. -/
def checkingRun (program : String) (unit : SyntheticUnit) : Invocation :=
  ⟨program,
    ["-x", "c++", "-fsyntax-only", "-fdiagnostics-color=never"] ++ unit.arguments ++ ["-"],
    unit.source⟩

/-- The run that preprocesses a unit. -/
def preprocessingRun (program : String) (unit : SyntheticUnit) : Invocation :=
  ⟨program, ["-x", "c++", "-E"] ++ unit.arguments ++ ["-"], unit.source⟩

/-- The unit that a preprocessing run shows. -/
def unitOfPreprocessing (readText : String → Option (List Char)) (program : String)
    (unit : SyntheticUnit) (result : ProcessResult) : Except FrontendError TranslationUnit :=
  if result.status.isSuccess then
    .ok ⟨[], DirectiveColumn.fill unit readText
      (IncludeGraph.edges unit.name result.outputText)⟩
  else
    .error (.ofResult program result)

/-- Parse a unit with a compiler.  Sources are read through `readText`. -/
def parse (compiler : Compiler State) (readText : String → Option (List Char))
    (program : String) (unit : SyntheticUnit) (state : State) :
    Except FrontendError TranslationUnit × State :=
  match compiler.start (checkingRun program unit) state with
  | (.error error, state) => (.error error, state)
  | (.ok checked, state) =>
      match Diagnostic.list checked.errorText with
      | diagnostics@(_ :: _) => (.ok ⟨diagnostics, []⟩, state)
      | [] =>
          if checked.status.isSuccess then
            let (answer, state) := compiler.start (preprocessingRun program unit) state
            (answer.bind (unitOfPreprocessing readText program unit), state)
          else
            (.error (.ofResult program checked), state)

/-- The frontend that runs a compiler. -/
def frontend (compiler : Compiler State) (readText : String → Option (List Char))
    (program : String) : Frontend State :=
  ⟨compiler.parse readText program⟩

end IncludeGate.Compiler
