import IncludeGate.Evaluation

/-!
# Violations of a rule set

An edge offends when some forbidden entry that is not excepted occurs anywhere in the
path of the included file.  This is said here of entries and texts, apart from the way
in which verdicts are found, and a verdict is shown to list exactly the edges that
offend.
-/

namespace IncludeGate

open Text

variable {rules : RuleSet}

/-- An edge leads to a file that some forbidden entry rules out, exceptions apart. -/
def Offends (rules : RuleSet) (exceptions : StringSet) (edge : IncludeEdge) : Prop :=
  ∃ entry ∈ rules.forbidden.toList,
    ¬ entry ∈ exceptions ∧ entry.toList <:+: edge.included.toList

/-- The search for a forbidden entry succeeds on the edges that offend. -/
theorem isSome_forbiddenMatch?_iff {exceptions : StringSet} {edge : IncludeEdge} :
    (RuleSet.forbiddenMatch? edge.included (rules.effectiveForbidden exceptions)).isSome = true ↔
      Offends rules exceptions edge := by
  rw [RuleSet.forbiddenMatch?, List.find?_isSome, Offends]
  constructor
  · rintro ⟨entry, member, occurs⟩
    obtain ⟨forbidden, notExcepted⟩ := StringSet.mem_sdiff.mp member
    exact ⟨entry, forbidden, notExcepted, occursIn_iff_isInfix.mp occurs⟩
  · rintro ⟨entry, forbidden, notExcepted, inside⟩
    exact ⟨entry, StringSet.mem_sdiff.mpr ⟨forbidden, notExcepted⟩,
      occursIn_iff_isInfix.mpr inside⟩

instance (rules : RuleSet) (exceptions : StringSet) (edge : IncludeEdge) :
    Decidable (Offends rules exceptions edge) :=
  decidable_of_iff _ isSome_forbiddenMatch?_iff

/-- The edges of a list that offend, in its order. -/
def offences (rules : RuleSet) (exceptions : StringSet) (edges : List IncludeEdge) :
    List IncludeEdge :=
  edges.filter fun edge => Offends rules exceptions edge

theorem offending_effectiveForbidden (exceptions : StringSet) (edges : List IncludeEdge) :
    HeaderVerdict.offending (rules.effectiveForbidden exceptions) edges =
      offences rules exceptions edges := by
  rw [HeaderVerdict.offending, offences]
  apply List.filter_congr
  intro edge _
  rw [Bool.eq_iff_iff, isSome_forbiddenMatch?_iff, decide_eq_true_iff]

theorem offences_ne_nil_iff {exceptions : StringSet} {edges : List IncludeEdge} :
    offences rules exceptions edges ≠ [] ↔ ∃ edge ∈ edges, Offends rules exceptions edge := by
  rw [offences, Ne, List.filter_eq_nil_iff]
  simp

/-- The headers with edges that offend, each with these edges, in the order of the
candidates. -/
def violationsOf (rules : RuleSet) (candidates : List Candidate)
    (units : List TranslationUnit) : List Violation :=
  ((candidates.zip units).filter fun (candidate, unit) =>
      ∃ edge ∈ unit.includes, Offends rules candidate.allowed edge).map
    fun (candidate, unit) =>
      ⟨candidate.path, offences rules candidate.allowed unit.includes⟩

@[simp] theorem violationsOf_nil (units : List TranslationUnit) :
    violationsOf rules [] units = [] := rfl

theorem violationsOf_cons (candidate : Candidate) (candidates : List Candidate)
    (unit : TranslationUnit) (units : List TranslationUnit) :
    violationsOf rules (candidate :: candidates) (unit :: units) =
      violationsOf rules [candidate] [unit] ++ violationsOf rules candidates units := by
  rw [violationsOf, List.zip_cons_cons, ← List.singleton_append, List.filter_append,
    List.map_append]
  rfl

/-- No violation comes without evidence. -/
theorem evidence_ne_nil_of_mem_violationsOf {candidates : List Candidate}
    {units : List TranslationUnit} {violation : Violation}
    (member : violation ∈ violationsOf rules candidates units) : violation.evidence ≠ [] := by
  rw [violationsOf, List.mem_map] at member
  obtain ⟨⟨candidate, unit⟩, kept, rfl⟩ := member
  have offends := (List.mem_filter.mp kept).2
  exact offences_ne_nil_iff.mpr (of_decide_eq_true offends)

/-- There is a violation exactly when there is an edge that offends. -/
theorem violationsOf_ne_nil_iff {candidates : List Candidate} {units : List TranslationUnit} :
    violationsOf rules candidates units ≠ [] ↔
      ∃ found ∈ candidates.zip units, ∃ edge ∈ found.2.includes,
        Offends rules found.1.allowed edge := by
  rw [violationsOf, Ne, List.map_eq_nil_iff, List.filter_eq_nil_iff]
  simp

theorem Outcome.ofViolations_of_ne_nil {violations : List Violation}
    (some : violations ≠ []) : ofViolations violations = policyViolations violations := by
  cases violations with
  | nil => exact absurd rfl some
  | cons first others => rfl

@[simp] theorem Outcome.violations_ofViolations (violations : List Violation) :
    (ofViolations violations).violations = violations := by
  cases violations with
  | nil => rfl
  | cons first others => rfl

/-! ## Verdicts -/

/-- The verdict on a unit with diagnostics gives them and nothing else. -/
theorem HeaderVerdict.ofUnit_of_diagnostics {header : String} {forbidden : StringSet}
    {unit : TranslationUnit} (faulty : unit.diagnostics ≠ []) :
    ofUnit header forbidden unit = .parseFailed unit.diagnostics := by
  cases listed : unit.diagnostics with
  | nil => exact absurd listed faulty
  | cons first rest => simp only [ofUnit, listed]

/-- The verdict on a parsed unit gives its violation if there is one. -/
theorem HeaderVerdict.ofUnit_of_clean (rules : RuleSet) (candidate : Candidate)
    {unit : TranslationUnit} (clean : unit.diagnostics = []) :
    (ofUnit candidate.path (rules.effectiveForbidden candidate.allowed) unit = .clean ∧
      violationsOf rules [candidate] [unit] = []) ∨
    ∃ violation,
      ofUnit candidate.path (rules.effectiveForbidden candidate.allowed) unit =
        .violation violation ∧
      violationsOf rules [candidate] [unit] = [violation] := by
  rw [ofUnit, clean, offending_effectiveForbidden]
  cases evidence : offences rules candidate.allowed unit.includes with
  | nil =>
      have none : ¬ ∃ edge ∈ unit.includes, Offends rules candidate.allowed edge :=
        fun offence => offences_ne_nil_iff.mpr offence evidence
      exact .inl ⟨rfl, by simp [violationsOf, none]⟩
  | cons first others =>
      have some : ∃ edge ∈ unit.includes, Offends rules candidate.allowed edge :=
        offences_ne_nil_iff.mp (by simp [evidence])
      exact .inr ⟨⟨candidate.path, first :: others⟩, rfl,
        by simp [violationsOf, some, evidence]⟩

end IncludeGate
