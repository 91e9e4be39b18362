import IncludeGate.Compiler
import IncludeGate.SearchList

/-!
# System include directories

A compiler that is asked to preprocess nothing with all details lists its include
directories.  Some write the listing to the standard output and some to the error
stream, so both are read, one after the other.
-/

namespace IncludeGate.Compiler

variable {State : Type}

/-- The run that makes a compiler list its directories. -/
def listingRun (program : String) : Invocation :=
  ⟨program, ["-v", "-E", "-x", "c++", "-"], ""⟩

/-- The flags that name the directories in a listing.  A listing that can be read
counts even if the compiler failed. -/
def flagsOfListing (program : String) (result : ProcessResult) :
    Except FrontendError (List String) :=
  match SearchList.directories? (result.outputText ++ result.errorText) with
  | some directories => .ok (SearchList.flags directories)
  | none =>
      if result.status.isSuccess then .error (.noSearchList program)
      else .error (.ofResult program result)

/-- The flags that name a compiler's system include directories. -/
def systemFlags (compiler : Compiler State) (program : String) (state : State) :
    Except FrontendError (List String) × State :=
  let (answer, state) := compiler.start (listingRun program) state
  (answer.bind (flagsOfListing program), state)

end IncludeGate.Compiler
