import IncludeGate.Proofs.Evaluation.Dialogue
import IncludeGate.Proofs.Evaluation.Violations

/-!
# What an evaluation asks and answers

An evaluation puts the units of its candidates to a frontend one after another, up to
the first reply that ends it, whatever the frontend makes of what it was asked before.
The last reply decides: an error is passed on, diagnostics take the place of whatever
was found, and only if all units are parsed the violations of all of them are given.
-/

namespace IncludeGate.Evaluation

open Dialogue

variable {State : Type} {frontend : Frontend State} {arguments : List String} {rules : RuleSet}

/-- What a frontend answers for a unit. -/
abbrev Reply := Except FrontendError TranslationUnit

/-- A reply ends an evaluation if it is an error or has diagnostics. -/
def Reply.ends : Reply → Bool
  | .error _ => true
  | .ok unit => !unit.diagnostics.isEmpty

theorem Reply.exists_of_not_ends {reply : Reply} (goesOn : reply.ends = false) :
    ∃ unit, reply = .ok unit ∧ unit.diagnostics = [] := by
  cases reply with
  | error error => contradiction
  | ok unit => exact ⟨unit, rfl, by simpa [Reply.ends] using goesOn⟩

/-- The result if a reply ends an evaluation, given its candidate and the number of
those before. -/
def lastResult (candidate : Candidate) (checked : Nat) :
    Reply → Except FrontendError Evaluation
  | .error error => .error error
  | .ok unit => .ok ⟨.parseFailed candidate.path unit.diagnostics, checked + 1⟩

/-- The units of candidates. -/
def unitsOf (arguments : List String) (candidates : List Candidate) : List SyntheticUnit :=
  candidates.map fun candidate => .forHeader candidate.path arguments

/-- The reply to a candidate after those before it. -/
def replyAfter (frontend : Frontend State) (arguments : List String)
    (before : List Candidate) (candidate : Candidate) (state : State) : Reply :=
  (frontend.parse (.forHeader candidate.path arguments)
    (stateAfter frontend.parse (unitsOf arguments before) state)).1

theorem unitsOf_split (arguments : List String) (before : List Candidate)
    (candidate : Candidate) (after : List Candidate) :
    unitsOf arguments (before ++ candidate :: after) =
      unitsOf arguments before ++
        .forHeader candidate.path arguments :: unitsOf arguments after :=
  List.map_append

theorem length_unitsOf (candidates : List Candidate) :
    (unitsOf arguments candidates).length = candidates.length :=
  List.length_map _

/-! ## One candidate -/

section Step

variable {candidate : Candidate} {rest : List Candidate} {found : List Violation}
variable {checked : Nat} {state next : State}

theorem resume_cons_of_ends {reply : Reply}
    (given : frontend.parse (.forHeader candidate.path arguments) state = (reply, next))
    (final : reply.ends = true) :
    resume frontend arguments rules (candidate :: rest) found checked state =
      (lastResult candidate checked reply, next) := by
  rw [resume, checkHeader, given]
  cases reply with
  | error error => rfl
  | ok unit =>
      have faulty : unit.diagnostics ≠ [] := by simpa [Reply.ends] using final
      simp only [Except.map, HeaderVerdict.ofUnit_of_diagnostics faulty]
      rfl

theorem resume_cons_of_clean {unit : TranslationUnit}
    (reply : frontend.parse (.forHeader candidate.path arguments) state = (.ok unit, next))
    (clean : unit.diagnostics = []) :
    resume frontend arguments rules (candidate :: rest) found checked state =
      resume frontend arguments rules rest (found ++ violationsOf rules [candidate] [unit])
        (checked + 1) next := by
  rw [resume, checkHeader, reply]
  rcases HeaderVerdict.ofUnit_of_clean rules candidate clean with
    ⟨verdict, nothing⟩ | ⟨violation, verdict, one⟩
  · simp only [Except.map, verdict, nothing, List.append_nil]
  · simp only [Except.map, verdict, one]

end Step

/-! ## Many candidates -/

/-- A frontend parses the units of all candidates, one after another. -/
structure Parses (frontend : Frontend State) (arguments : List String)
    (candidates : List Candidate) (state : State) (units : List TranslationUnit) : Prop where
  replies : answers frontend.parse (unitsOf arguments candidates) state = units.map .ok
  clean : ∀ unit ∈ units, unit.diagnostics = []

namespace Parses

variable {candidates : List Candidate} {units : List TranslationUnit} {state : State}

theorem nil : Parses frontend arguments [] state [] :=
  ⟨rfl, fun _ member => absurd member List.not_mem_nil⟩

theorem cons {candidate : Candidate} {unit : TranslationUnit} {next : State}
    (reply : frontend.parse (.forHeader candidate.path arguments) state = (.ok unit, next))
    (clean : unit.diagnostics = []) (rest : Parses frontend arguments candidates next units) :
    Parses frontend arguments (candidate :: candidates) state (unit :: units) where
  replies := by
    rw [unitsOf, List.map_cons, answers_cons, reply, List.map_cons, ← rest.replies]
    rfl
  clean := List.forall_mem_cons.mpr ⟨clean, rest.clean⟩

theorem exists_of_cons {candidate : Candidate}
    (parses : Parses frontend arguments (candidate :: candidates) state units) :
    ∃ unit others,
      frontend.parse (.forHeader candidate.path arguments) state =
        (.ok unit, (frontend.parse (.forHeader candidate.path arguments) state).2) ∧
      unit.diagnostics = [] ∧
      Parses frontend arguments candidates
        (frontend.parse (.forHeader candidate.path arguments) state).2 others ∧
      units = unit :: others := by
  obtain ⟨replies, clean⟩ := parses
  cases units with
  | nil => exact absurd replies (List.cons_ne_nil _ _)
  | cons unit others =>
      obtain ⟨first, rest⟩ := List.cons.inj replies
      obtain ⟨unitClean, othersClean⟩ := List.forall_mem_cons.mp clean
      exact ⟨unit, others, Prod.ext first rfl, unitClean, ⟨rest, othersClean⟩, rfl⟩

theorem never_ends (parses : Parses frontend arguments candidates state units) :
    ∀ reply ∈ answers frontend.parse (unitsOf arguments candidates) state,
      Reply.ends reply = false := by
  intro reply member
  rw [parses.replies] at member
  obtain ⟨unit, given, rfl⟩ := List.mem_map.mp member
  simp [Reply.ends, parses.clean unit given]

/-- Keeping a record of the units changes no answer. -/
theorem recording (parses : Parses frontend arguments candidates state units)
    (seen : List SyntheticUnit) :
    Parses frontend.recording arguments candidates (state, seen) units :=
  ⟨(answers_recorded frontend.parse _ (state, seen)).trans parses.replies, parses.clean⟩

end Parses

/-- As long as units are parsed, an evaluation goes on with the next candidate and
collects the violations. -/
theorem resume_append {before after : List Candidate} {units : List TranslationUnit}
    {found : List Violation} {checked : Nat} {state : State}
    (parses : Parses frontend arguments before state units) :
    resume frontend arguments rules (before ++ after) found checked state =
      resume frontend arguments rules after (found ++ violationsOf rules before units)
        (checked + before.length)
        (stateAfter frontend.parse (unitsOf arguments before) state) := by
  induction before generalizing units found checked state with
  | nil =>
      rw [violationsOf_nil, List.append_nil]
      rfl
  | cons candidate before ih =>
      obtain ⟨unit, units, reply, clean, rest, rfl⟩ := parses.exists_of_cons
      rw [List.cons_append, resume_cons_of_clean reply clean, ih rest, List.append_assoc,
        ← violationsOf_cons, List.length_cons, Nat.add_right_comm]
      rfl

/-- Either all units are parsed, or there is a first candidate whose reply ends the
evaluation. -/
theorem exists_parses (frontend : Frontend State) (arguments : List String)
    (candidates : List Candidate) (state : State) :
    (∃ units, Parses frontend arguments candidates state units) ∨
    ∃ before candidate after units,
      candidates = before ++ candidate :: after ∧
      Parses frontend arguments before state units ∧
      (replyAfter frontend arguments before candidate state).ends = true := by
  induction candidates generalizing state with
  | nil => exact .inl ⟨[], .nil⟩
  | cons candidate rest ih =>
      cases reply : frontend.parse (.forHeader candidate.path arguments) state with
      | mk answer next =>
        cases ending : Reply.ends answer with
        | true =>
            refine .inr ⟨[], candidate, rest, [], rfl, .nil, ?_⟩
            rw [replyAfter, unitsOf, List.map_nil, stateAfter_nil, reply]
            exact ending
        | false =>
            obtain ⟨unit, rfl, clean⟩ := Reply.exists_of_not_ends ending
            cases ih next with
            | inl all =>
                obtain ⟨units, parses⟩ := all
                exact .inl ⟨unit :: units, .cons reply clean parses⟩
            | inr halted =>
                obtain ⟨before, last, after, units, rfl, parses, final⟩ := halted
                refine .inr ⟨candidate :: before, last, after, unit :: units, rfl,
                  .cons reply clean parses, ?_⟩
                rw [replyAfter, unitsOf, List.map_cons, stateAfter_cons, reply]
                exact final

/-! ## Results -/

/-- The index of the first reply that ends an evaluation, or the number of all. -/
def firstEnd (replies : List Reply) : Nat :=
  replies.findIdx Reply.ends

/-- The result that replies to the candidates call for. -/
inductive Concludes (rules : RuleSet) (candidates : List Candidate) (replies : List Reply) :
    Except FrontendError Evaluation → Prop where
  /-- The error of a frontend is the result. -/
  | error {error : FrontendError} :
      replies[firstEnd replies]? = some (.error error) →
      Concludes rules candidates replies (.error error)
  /-- The first diagnostics are all that is told. -/
  | diagnostics {candidate : Candidate} {unit : TranslationUnit} :
      replies[firstEnd replies]? = some (.ok unit) →
      candidates[firstEnd replies]? = some candidate →
      unit.diagnostics ≠ [] →
      Concludes rules candidates replies
        (.ok ⟨.parseFailed candidate.path unit.diagnostics, firstEnd replies + 1⟩)
  /-- All units are parsed and no edge offends. -/
  | clean {units : List TranslationUnit} :
      replies = units.map .ok →
      (∀ unit ∈ units, unit.diagnostics = []) →
      (∀ found ∈ candidates.zip units, ∀ edge ∈ found.2.includes,
        ¬ Offends rules found.1.allowed edge) →
      Concludes rules candidates replies (.ok ⟨.allClean, candidates.length⟩)
  /-- All units are parsed and some edge offends. -/
  | violations {units : List TranslationUnit} :
      replies = units.map .ok →
      (∀ unit ∈ units, unit.diagnostics = []) →
      (∃ found ∈ candidates.zip units, ∃ edge ∈ found.2.includes,
        Offends rules found.1.allowed edge) →
      violationsOf rules candidates units ≠ [] →
      (∀ violation ∈ violationsOf rules candidates units, violation.evidence ≠ []) →
      Concludes rules candidates replies
        (.ok ⟨.policyViolations (violationsOf rules candidates units), candidates.length⟩)

section Run

variable {candidates : List Candidate} {units : List TranslationUnit} {state : State}

theorem run_of_parses (rules : RuleSet)
    (parses : Parses frontend arguments candidates state units) :
    run frontend arguments rules candidates state =
      (.ok ⟨.ofViolations (violationsOf rules candidates units), candidates.length⟩,
        stateAfter frontend.parse (unitsOf arguments candidates) state) := by
  rw [run, ← List.append_nil candidates, resume_append parses, List.append_nil, List.nil_append,
    Nat.zero_add]
  rfl

theorem run_of_ends (rules : RuleSet) {before : List Candidate} {candidate : Candidate}
    (parses : Parses frontend arguments before state units)
    (final : (replyAfter frontend arguments before candidate state).ends = true)
    (after : List Candidate) :
    run frontend arguments rules (before ++ candidate :: after) state =
      (lastResult candidate before.length (replyAfter frontend arguments before candidate state),
        stateAfter frontend.parse
          (unitsOf arguments before ++ [.forHeader candidate.path arguments]) state) := by
  rw [run, resume_append parses, resume_cons_of_ends rfl final, Nat.zero_add, stateAfter_append]
  rfl

theorem concludes_of_parses (parses : Parses frontend arguments candidates state units) :
    Concludes rules candidates (answers frontend.parse (unitsOf arguments candidates) state)
      (.ok ⟨.ofViolations (violationsOf rules candidates units), candidates.length⟩) := by
  cases listed : violationsOf rules candidates units with
  | nil =>
      apply Concludes.clean parses.replies parses.clean
      intro found member edge edgeMember offends
      exact violationsOf_ne_nil_iff.mpr ⟨found, member, edge, edgeMember, offends⟩ listed
  | cons first others =>
      have some : violationsOf rules candidates units ≠ [] := by simp [listed]
      rw [← listed, Outcome.ofViolations_of_ne_nil some]
      apply Concludes.violations parses.replies parses.clean
      · exact violationsOf_ne_nil_iff.mp some
      · exact some
      · intro violation
        exact evidence_ne_nil_of_mem_violationsOf

section Ends

variable {before : List Candidate} {candidate : Candidate}

theorem asked_of_replyAfter_ends (parses : Parses frontend arguments before state units)
    (final : (replyAfter frontend arguments before candidate state).ends = true)
    (after : List Candidate) :
    asked frontend.parse Reply.ends (unitsOf arguments (before ++ candidate :: after)) state =
      unitsOf arguments before ++ [.forHeader candidate.path arguments] := by
  rw [unitsOf_split]
  exact asked_of_ends parses.never_ends final (unitsOf arguments after)

theorem firstEnd_of_replyAfter_ends (parses : Parses frontend arguments before state units)
    (final : (replyAfter frontend arguments before candidate state).ends = true)
    (after : List Candidate) :
    firstEnd (answers frontend.parse (unitsOf arguments (before ++ candidate :: after)) state) =
      before.length := by
  rw [firstEnd, unitsOf_split, findIdx_of_ends parses.never_ends final, length_unitsOf]

theorem getElem?_replies (frontend : Frontend State) (arguments : List String)
    (before : List Candidate) (candidate : Candidate) (after : List Candidate) (state : State) :
    (answers frontend.parse (unitsOf arguments (before ++ candidate :: after))
        state)[before.length]? =
      some (replyAfter frontend arguments before candidate state) := by
  rw [unitsOf_split, ← length_unitsOf before]
  exact getElem?_answers ..

theorem concludes_of_ends (parses : Parses frontend arguments before state units)
    (final : (replyAfter frontend arguments before candidate state).ends = true)
    (after : List Candidate) :
    Concludes rules (before ++ candidate :: after)
      (answers frontend.parse (unitsOf arguments (before ++ candidate :: after)) state)
      (lastResult candidate before.length
        (replyAfter frontend arguments before candidate state)) := by
  have end_eq := firstEnd_of_replyAfter_ends parses final after
  have given := getElem?_replies frontend arguments before candidate after state
  rw [← end_eq] at given ⊢
  cases reply : replyAfter frontend arguments before candidate state with
  | error error =>
      rw [reply] at given
      exact .error given
  | ok unit =>
      rw [reply] at given final
      apply Concludes.diagnostics given
      · rw [end_eq, List.getElem?_append_right (Nat.le_refl _), Nat.sub_self]
        rfl
      · simpa [Reply.ends] using final

end Ends

end Run

theorem stateAfter_recording (frontend : Frontend State) (units : List SyntheticUnit)
    (state : State) :
    stateAfter frontend.recording.parse units (state, []) =
      (stateAfter frontend.parse units state, units) :=
  stateAfter_recorded frontend.parse units state []

/-- An evaluation asks for the units of its candidates in order, up to the first reply
that ends it, and comes to the result that the replies call for.  A frontend that keeps
the units gets the same replies and ends with exactly the units asked for. -/
theorem run_dialogue (frontend : Frontend State) (arguments : List String)
    (rules : RuleSet) (candidates : List Candidate) (state : State) :
    let units := unitsOf arguments candidates
    let replies := answers frontend.parse units state
    let asked := units.take (firstEnd replies + 1)
    ∃ result,
      run frontend arguments rules candidates state =
        (result, stateAfter frontend.parse asked state) ∧
      run frontend.recording arguments rules candidates (state, []) =
        (result, stateAfter frontend.parse asked state, asked) ∧
      Concludes rules candidates replies result := by
  intro units replies asked
  cases exists_parses frontend arguments candidates state with
  | inl all =>
      obtain ⟨found, parses⟩ := all
      have asked_eq : asked = units := asked_of_never_ends parses.never_ends
      rw [asked_eq]
      refine ⟨_, run_of_parses rules parses, ?_, concludes_of_parses parses⟩
      rw [run_of_parses rules (parses.recording []), stateAfter_recording]
  | inr halted =>
      obtain ⟨before, candidate, after, found, rfl, parses, final⟩ := halted
      have asked_eq : asked = unitsOf arguments before ++ [.forHeader candidate.path arguments] :=
        asked_of_replyAfter_ends parses final after
      have same : replyAfter frontend.recording arguments before candidate (state, []) =
          replyAfter frontend arguments before candidate state := by
        rw [replyAfter, stateAfter_recording]
        rfl
      rw [asked_eq]
      refine ⟨_, run_of_ends rules parses final after, ?_, concludes_of_ends parses final after⟩
      rw [run_of_ends rules (parses.recording []) (same ▸ final), stateAfter_recording, same]

end IncludeGate.Evaluation
