import IncludeGate.ExitStatus
import IncludeGate.SystemError
import IncludeGate.Text.Blank
import IncludeGate.Text.Utf8
import IncludeGate.TranslationUnit

/-!
# Compilers

A compiler is a program that is started with arguments and reads the standard
input.  What it does may depend on everything it did before, so running it takes a
state and gives one back.
-/

namespace IncludeGate

/-- One run of a program. -/
structure Invocation where
  program : String
  arguments : List String
  /-- What the program can read from its standard input. -/
  input : String
  deriving DecidableEq, Repr

/-- Something that runs programs. -/
structure Compiler (State : Type) where
  run : Invocation → State → Except SystemError ProcessResult × State

namespace Compiler

variable {State : Type}

/-- A compiler whose behaviour depends on the invocation alone. -/
def ofAnswers (answer : Invocation → Except SystemError ProcessResult) : Compiler State :=
  ⟨fun invocation state => (answer invocation, state)⟩

/-- A compiler that also keeps the runs that were attempted, the latest one
last. -/
def recording (compiler : Compiler State) : Compiler (State × List Invocation) :=
  ⟨fun invocation (state, seen) =>
    let (answer, state) := compiler.run invocation state
    (answer, (state, seen ++ [invocation]))⟩

/-- Run a program for a frontend, for which a program that cannot be started has
failed. -/
def start (compiler : Compiler State) (invocation : Invocation) (state : State) :
    Except FrontendError ProcessResult × State :=
  let (answer, state) := compiler.run invocation state
  (answer.mapError (.spawn invocation.program), state)

end Compiler

/-- What a program wrote to the output stream, as text. -/
def ProcessResult.outputText (result : ProcessResult) : List Char :=
  Utf8.decodeLossy result.output

/-- What a program wrote to the error stream, as text. -/
def ProcessResult.errorText (result : ProcessResult) : List Char :=
  Utf8.decodeLossy result.errors

/-- The failure of a program, with what it wrote to the error stream. -/
def FrontendError.ofResult (program : String) (result : ProcessResult) : FrontendError :=
  .failed program result.status (String.ofList (Text.trim result.errorText))

end IncludeGate
