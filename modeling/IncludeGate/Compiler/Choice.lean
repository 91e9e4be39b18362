import IncludeGate.Compiler

/-!
# Choosing a compiler

A compiler that is named explicitly is taken without a question, unless its name
is blank.  Otherwise the first of the usual compilers that tells its version is
taken.
-/

namespace IncludeGate.Compiler

variable {State : Type}

/-- The compilers to try. -/
def usualPrograms : List String := ["clang++", "g++", "c++"]

/-- Whether a program tells its version. -/
def tellsVersion (compiler : Compiler State) (program : String) (state : State) :
    Bool × State :=
  let (answer, state) := compiler.run ⟨program, ["--version"], ""⟩ state
  match answer with
  | .ok result => (result.status.isSuccess, state)
  | .error _ => (false, state)

/-- The first of the given programs that tells its version. -/
def firstUsable (compiler : Compiler State) : List String → State → Option String × State
  | [], state => (none, state)
  | program :: rest, state =>
      match compiler.tellsVersion program state with
      | (true, state) => (some program, state)
      | (false, state) => compiler.firstUsable rest state

/-- Choose a compiler, given one that may be named explicitly. -/
def choose (compiler : Compiler State) (named : Option String) (state : State) :
    Option String × State :=
  match named with
  | some program =>
      if (Text.trim program.toList).isEmpty then compiler.firstUsable usualPrograms state
      else (some program, state)
  | none => compiler.firstUsable usualPrograms state

end IncludeGate.Compiler
