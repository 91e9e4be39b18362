import IncludeGate.Proofs.Evaluation.Protocol
import Mathlib.Data.List.Forall2

/-!
# Weaker rules

Rules become weaker when entries are no longer forbidden or when candidates get more
exceptions.  What a frontend is asked does not depend on the rules, and neither does what
it answers, so two evaluations of the same headers go side by side: they stop at the same
candidate for the same reason, or both see every unit.  Of the units that both see, the
weaker rules find fault with fewer edges.
-/

namespace IncludeGate

/-- A candidate for the same header with at least the same exceptions. -/
structure Candidate.Relaxes (relaxed candidate : Candidate) : Prop where
  path : relaxed.path = candidate.path
  allowed : ∀ entry ∈ candidate.allowed, entry ∈ relaxed.allowed

/-- A violation by the same header with some of the evidence. -/
structure Violation.Thins (thinner violation : Violation) : Prop where
  header : thinner.header = violation.header
  evidence : thinner.evidence.Sublist violation.evidence

/-- Violations that are left of others when each loses evidence and those that lose all of
it are dropped. -/
def Thinned (kept violations : List Violation) : Prop :=
  ∃ thinner, List.Forall₂ Violation.Thins thinner violations ∧
    kept = thinner.filter fun violation => violation.evidence ≠ []

namespace Thinned

theorem nil : Thinned [] [] :=
  ⟨[], .nil, rfl⟩

theorem append {kept violations further others : List Violation}
    (left : Thinned kept violations) (right : Thinned further others) :
    Thinned (kept ++ further) (violations ++ others) := by
  obtain ⟨first, firstThins, rfl⟩ := left
  obtain ⟨second, secondThins, rfl⟩ := right
  exact ⟨first ++ second, List.rel_append firstThins secondThins,
    (List.filter_append ..).symm⟩

/-- Nothing is left of no violations. -/
theorem eq_nil {kept : List Violation} (thinned : Thinned kept []) : kept = [] := by
  obtain ⟨thinner, thins, rfl⟩ := thinned
  cases thins
  rfl

end Thinned

variable {weaker stricter : RuleSet} {relaxed candidate : Candidate}

/-- An edge that offends against weaker rules offends against stricter ones. -/
theorem Offends.of_relaxes {edge : IncludeEdge}
    (fewer : ∀ entry ∈ weaker.forbidden, entry ∈ stricter.forbidden)
    (relaxes : relaxed.Relaxes candidate) (offends : Offends weaker relaxed.allowed edge) :
    Offends stricter candidate.allowed edge := by
  obtain ⟨entry, forbidden, notExcepted, inside⟩ := offends
  refine ⟨entry, fewer entry forbidden, ?_, inside⟩
  intro excepted
  exact notExcepted (relaxes.allowed entry excepted)

theorem offences_sublist (fewer : ∀ entry ∈ weaker.forbidden, entry ∈ stricter.forbidden)
    (relaxes : relaxed.Relaxes candidate) (edges : List IncludeEdge) :
    (offences weaker relaxed.allowed edges).Sublist
      (offences stricter candidate.allowed edges) := by
  apply List.monotone_filter_right
  intro edge offends
  rw [decide_eq_true_eq] at offends ⊢
  exact offends.of_relaxes fewer relaxes

/-- One unit gives one violation if it has offences, and else none. -/
theorem violationsOf_singleton (rules : RuleSet) (candidate : Candidate)
    (unit : TranslationUnit) :
    violationsOf rules [candidate] [unit] =
      [⟨candidate.path, offences rules candidate.allowed unit.includes⟩].filter
        fun violation : Violation => violation.evidence ≠ [] := by
  have some_iff : offences rules candidate.allowed unit.includes ≠ [] ↔ _ := offences_ne_nil_iff
  by_cases some : ∃ edge ∈ unit.includes, Offends rules candidate.allowed edge
  · simp [violationsOf, some, some_iff.mpr some]
  · have none := some_iff.not.mpr some
    simp [violationsOf, some, none]

theorem thinned_violationsOf_singleton
    (fewer : ∀ entry ∈ weaker.forbidden, entry ∈ stricter.forbidden)
    (relaxes : relaxed.Relaxes candidate) (unit : TranslationUnit) :
    Thinned (violationsOf weaker [relaxed] [unit]) (violationsOf stricter [candidate] [unit]) := by
  have sublist := offences_sublist fewer relaxes unit.includes
  rw [violationsOf_singleton, violationsOf_singleton]
  cases evidence : offences stricter candidate.allowed unit.includes with
  | nil =>
      rw [evidence] at sublist
      rw [List.eq_nil_of_sublist_nil sublist]
      exact .nil
  | cons first others =>
      rw [evidence] at sublist
      exact ⟨_, .cons ⟨relaxes.path, sublist⟩ .nil, rfl⟩

namespace Evaluation

/-- How the result for weaker rules goes with the result for stricter ones. -/
inductive Weakens : Except FrontendError Evaluation → Except FrontendError Evaluation → Prop where
  | error (error : FrontendError) : Weakens (.error error) (.error error)
  | parseFailed (header : String) (diagnostics : List Diagnostic) (checked : Nat) :
      Weakens (.ok ⟨.parseFailed header diagnostics, checked⟩)
        (.ok ⟨.parseFailed header diagnostics, checked⟩)
  | violations {kept violations : List Violation} (checked : Nat) :
      Thinned kept violations →
      Weakens (.ok ⟨.ofViolations kept, checked⟩) (.ok ⟨.ofViolations violations, checked⟩)

variable {State : Type} {frontend : Frontend State} {arguments : List String}
variable {answer : SyntheticUnit → Reply} {relaxations candidates : List Candidate}

theorem weakens_lastResult (relaxes : relaxed.Relaxes candidate) (checked : Nat)
    (reply : Reply) :
    Weakens (lastResult relaxed checked reply) (lastResult candidate checked reply) := by
  cases reply with
  | error error => exact .error error
  | ok unit =>
      rw [lastResult, lastResult, relaxes.path]
      exact .parseFailed ..

/-- Two evaluations that have found violations so far, the weaker rules fewer of them, go
on side by side. -/
theorem weakens_resume (stateless : ∀ unit state, (frontend.parse unit state).1 = answer unit)
    (fewer : ∀ entry ∈ weaker.forbidden, entry ∈ stricter.forbidden)
    (relax : List.Forall₂ Candidate.Relaxes relaxations candidates)
    {kept found : List Violation} (thinned : Thinned kept found) (checked : Nat)
    (state other : State) :
    Weakens (resume frontend arguments weaker relaxations kept checked state).1
      (resume frontend arguments stricter candidates found checked other).1 := by
  -- The frontends may be in different states; their answers are the same all the same.
  induction relax generalizing kept found checked state other with
  | nil => exact .violations checked thinned
  | @cons relaxed candidate relaxations candidates relaxes _ ih =>
      let unit := SyntheticUnit.forHeader candidate.path arguments
      have weakerReply : frontend.parse (.forHeader relaxed.path arguments) state =
          (answer unit, (frontend.parse unit state).2) := by
        rw [relaxes.path]
        exact Prod.ext (stateless unit state) rfl
      have stricterReply : frontend.parse (.forHeader candidate.path arguments) other =
          (answer unit, (frontend.parse unit other).2) :=
        Prod.ext (stateless unit other) rfl
      cases ending : Reply.ends (answer unit) with
      | true =>
          rw [resume_cons_of_ends weakerReply ending, resume_cons_of_ends stricterReply ending]
          exact weakens_lastResult relaxes checked (answer unit)
      | false =>
          obtain ⟨parsed, given, clean⟩ := Reply.exists_of_not_ends ending
          rw [given] at weakerReply stricterReply
          rw [resume_cons_of_clean weakerReply clean, resume_cons_of_clean stricterReply clean]
          exact ih (thinned.append (thinned_violationsOf_singleton fewer relaxes parsed)) ..

theorem weakens_run (stateless : ∀ unit state, (frontend.parse unit state).1 = answer unit)
    (fewer : ∀ entry ∈ weaker.forbidden, entry ∈ stricter.forbidden)
    (relax : List.Forall₂ Candidate.Relaxes relaxations candidates) (state other : State) :
    Weakens (run frontend arguments weaker relaxations state).1
      (run frontend arguments stricter candidates other).1 :=
  weakens_resume stateless fewer relax .nil 0 state other

/-- Under weaker rules the frontend's errors and the parse failures are those of the
stricter rules, and any other run finds what is left of their violations; so where the
stricter rules find nothing, neither do the weaker ones. -/
theorem run_of_weaker_rules (frontend : Frontend State) (answer : SyntheticUnit → Reply)
    (arguments : List String) (state other : State)
    (stateless : ∀ unit state, (frontend.parse unit state).1 = answer unit)
    (fewer : ∀ entry ∈ weaker.forbidden, entry ∈ stricter.forbidden)
    (relax : List.Forall₂ Candidate.Relaxes relaxations candidates) :
    let relaxedResult := (run frontend arguments weaker relaxations state).1
    let result := (run frontend arguments stricter candidates other).1
    (∀ error, relaxedResult = .error error ↔ result = .error error) ∧
    (∀ header diagnostics checked,
      relaxedResult = .ok ⟨.parseFailed header diagnostics, checked⟩ ↔
        result = .ok ⟨.parseFailed header diagnostics, checked⟩) ∧
    (∀ evaluation, result = .ok evaluation →
      (∀ header diagnostics, evaluation.outcome ≠ .parseFailed header diagnostics) →
      ∃ kept, Thinned kept evaluation.outcome.violations ∧
        relaxedResult = .ok ⟨.ofViolations kept, evaluation.headersChecked⟩) ∧
    (∀ checked, result = .ok ⟨.allClean, checked⟩ → relaxedResult = .ok ⟨.allClean, checked⟩) := by
  intro relaxedResult result
  have weakens : Weakens relaxedResult result := weakens_run stateless fewer relax state other
  clear_value relaxedResult result
  cases weakens with
  | error error => simp
  | parseFailed header diagnostics checked => simp
  | @violations kept violations checked thinned =>
      have noFailure : ∀ violations header diagnostics,
          Outcome.ofViolations violations ≠ .parseFailed header diagnostics := by
        intro violations header diagnostics
        cases violations <;> nofun
      refine ⟨by simp, by simp [noFailure], ?_, ?_⟩
      · rintro evaluation given -
        cases given
        exact ⟨kept, by simpa using thinned, rfl⟩
      · intro clean given
        cases violations with
        | nil =>
            cases given
            rw [thinned.eq_nil]
            rfl
        | cons first others => cases given

/-- The edge of the first line of a header. -/
def firstLineEdge (included includer : String) : IncludeEdge :=
  ⟨included, includer, ⟨includer, 1, 1⟩⟩

/-- Both headers include a private one, and the first includes a detail, too. -/
def twoHeaderAnswer (unit : SyntheticUnit) : Reply :=
  if unit.header = "/w/a.h" then
    .ok ⟨[], [firstLineEdge "/w/priv/x.h" "/w/a.h", firstLineEdge "/w/detail/y.h" "/w/priv/x.h"]⟩
  else
    .ok ⟨[], [firstLineEdge "/w/priv/x.h" "/w/b.h"]⟩

/-- The violations when private headers and details are forbidden everywhere. -/
def twoHeaderViolations : List Violation :=
  [⟨"/w/a.h", [firstLineEdge "/w/priv/x.h" "/w/a.h", firstLineEdge "/w/detail/y.h" "/w/priv/x.h"]⟩,
    ⟨"/w/b.h", [firstLineEdge "/w/priv/x.h" "/w/b.h"]⟩]

/-- If details are allowed and the second header may include what is private, the first
violation loses evidence and the second one goes. -/
theorem run_twoHeaderAnswer_of_weaker_rules :
    ∃ kept, Thinned kept twoHeaderViolations ∧
      (run (.ofAnswers twoHeaderAnswer) [] ⟨.ofList ["priv/"], []⟩
        [⟨"/w/a.h", .empty⟩, ⟨"/w/b.h", .ofList ["priv/"]⟩] ()).1 =
      .ok ⟨.ofViolations kept, 2⟩ := by
  let weaker : RuleSet := ⟨.ofList ["priv/"], []⟩
  let stricter : RuleSet := ⟨.ofList ["priv/", "detail/"], []⟩
  have fewer : ∀ entry ∈ weaker.forbidden, entry ∈ stricter.forbidden := by decide
  have relax : List.Forall₂ Candidate.Relaxes
      [⟨"/w/a.h", .empty⟩, ⟨"/w/b.h", .ofList ["priv/"]⟩]
      [⟨"/w/a.h", .empty⟩, ⟨"/w/b.h", .empty⟩] :=
    .cons ⟨rfl, by decide⟩ (.cons ⟨rfl, by decide⟩ .nil)
  obtain ⟨-, -, violations, -⟩ := run_of_weaker_rules (.ofAnswers twoHeaderAnswer)
    twoHeaderAnswer [] () () (fun _ _ => rfl) fewer relax
  exact violations ⟨.policyViolations twoHeaderViolations, 2⟩ (by decide +kernel) nofun

end Evaluation

end IncludeGate
