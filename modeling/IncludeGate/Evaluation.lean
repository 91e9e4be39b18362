import IncludeGate.Rules
import IncludeGate.TranslationUnit

/-!
# Evaluating headers

Candidates are handed to the frontend one by one.  A header violates the rules
when some file that it reaches has a forbidden entry in its path; the evidence is
the edges to these files.  A diagnostic of any kind ends the whole evaluation and
discards the violations found so far, because what a compiler makes of a broken
header says nothing about its includes.  An error of the frontend ends it too.
-/

namespace IncludeGate

/-- A header to check, with the exceptions for its place in the tree. -/
structure Candidate where
  path : String
  allowed : StringSet
  deriving DecidableEq, Repr

/-- A header that reaches forbidden files. -/
structure Violation where
  header : String
  /-- The edges to forbidden files, in the order of the frontend. -/
  evidence : List IncludeEdge
  deriving DecidableEq, Repr

/-- The result for one header. -/
inductive HeaderVerdict where
  | clean
  | violation (violation : Violation)
  | parseFailed (diagnostics : List Diagnostic)
  deriving DecidableEq, Repr

namespace HeaderVerdict

/-- The edges of a list that lead to forbidden files. -/
def offending (forbidden : StringSet) (edges : List IncludeEdge) : List IncludeEdge :=
  edges.filter fun edge => (RuleSet.forbiddenMatch? edge.included forbidden).isSome

/-- The verdict on a header, given what the frontend found. -/
def ofUnit (header : String) (forbidden : StringSet) (unit : TranslationUnit) :
    HeaderVerdict :=
  match unit.diagnostics, offending forbidden unit.includes with
  | diagnostics@(_ :: _), _ => .parseFailed diagnostics
  | [], [] => .clean
  | [], evidence => .violation ⟨header, evidence⟩

end HeaderVerdict

/-- The end of an evaluation. -/
inductive Outcome where
  | allClean
  /-- The first header with diagnostics; later ones were not looked at. -/
  | parseFailed (header : String) (diagnostics : List Diagnostic)
  | policyViolations (violations : List Violation)
  deriving DecidableEq, Repr

namespace Outcome

/-- The outcome of an evaluation without parse failure. -/
def ofViolations : List Violation → Outcome
  | [] => allClean
  | violations => policyViolations violations

/-- The exit code for an outcome. -/
def exitCode : Outcome → Nat
  | allClean => 0
  | parseFailed .. => 1
  | policyViolations _ => 2

/-- The violations of an outcome. -/
def violations : Outcome → List Violation
  | policyViolations violations => violations
  | _ => []

end Outcome

/-- The outcome, and how many headers were handed to the frontend. -/
structure Evaluation where
  outcome : Outcome
  /-- The count without a bound.  `Report.ofEvaluation` makes a word of 32 bits of it,
  which is what counting in such words comes to. -/
  headersChecked : Nat
  deriving DecidableEq, Repr

variable {State : Type}

/-- Check one header with the forbidden entries that hold for it. -/
def checkHeader (frontend : Frontend State) (header : String) (arguments : List String)
    (forbidden : StringSet) (state : State) : Except FrontendError HeaderVerdict × State :=
  let (answer, state) := frontend.parse (.forHeader header arguments) state
  (answer.map (HeaderVerdict.ofUnit header forbidden), state)

namespace Evaluation

/-- Go on with an evaluation, given the violations found and the number of
headers checked so far. -/
def resume (frontend : Frontend State) (arguments : List String) (rules : RuleSet) :
    List Candidate → List Violation → Nat → State → Except FrontendError Evaluation × State
  | [], found, checked, state => (.ok ⟨.ofViolations found, checked⟩, state)
  | candidate :: rest, found, checked, state =>
      match checkHeader frontend candidate.path arguments
          (rules.effectiveForbidden candidate.allowed) state with
      | (.error error, state) => (.error error, state)
      | (.ok .clean, state) =>
          resume frontend arguments rules rest found (checked + 1) state
      | (.ok (.violation violation), state) =>
          resume frontend arguments rules rest (found ++ [violation]) (checked + 1) state
      | (.ok (.parseFailed diagnostics), state) =>
          (.ok ⟨.parseFailed candidate.path diagnostics, checked + 1⟩, state)

/-- Check all candidates in order. -/
def run (frontend : Frontend State) (arguments : List String) (rules : RuleSet)
    (candidates : List Candidate) (state : State) : Except FrontendError Evaluation × State :=
  resume frontend arguments rules candidates [] 0 state

end Evaluation

end IncludeGate
