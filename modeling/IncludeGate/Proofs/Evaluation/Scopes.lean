import IncludeGate.Proofs.Evaluation.Violations
import IncludeGate.Proofs.Rules.Matching
import IncludeGate.Scan

/-!
# Scopes and the edges they excuse

An entry is excused for a header by the first scope that applies to it and by no other
one.  The exceptions that a scan puts down with a header are exactly the entries that
are excused, so what offends can be said in terms of the declared scopes.
-/

namespace IncludeGate

variable {rules : RuleSet} {header : HeaderFile}

/-- A scope ends the directory or the path of a header. -/
def AllowScope.Covers (scope : AllowScope) (header : HeaderFile) : Prop :=
  scope.scope.toList <:+ header.directory.toList ∨ scope.scope.toList <:+ header.path.toList

/-- The first scope that covers a header excepts an entry. -/
def Excused (rules : RuleSet) (header : HeaderFile) (entry : String) : Prop :=
  ∃ earlier scope later, rules.allowed = earlier ++ scope :: later ∧
    (∀ other ∈ earlier, ¬ other.Covers header) ∧ scope.Covers header ∧
    entry ∈ scope.exceptions

/-- An edge from a header leads to a file that may not be included from it. -/
def Breaks (rules : RuleSet) (header : HeaderFile) (edge : IncludeEdge) : Prop :=
  ∃ entry ∈ rules.forbidden, entry.toList <:+: edge.included.toList ∧
    ¬ Excused rules header entry

/-- The exceptions for a header are the entries that are excused for it. -/
theorem mem_allowedFor_iff {entry : String} :
    entry ∈ rules.allowedFor header.directory header.path ↔ Excused rules header entry :=
  RuleSet.mem_allowedFor_iff

instance (rules : RuleSet) (header : HeaderFile) (entry : String) :
    Decidable (Excused rules header entry) :=
  decidable_of_iff _ mem_allowedFor_iff

theorem not_breaks_iff {edge : IncludeEdge} :
    ¬ Breaks rules header edge ↔
      ∀ entry ∈ rules.forbidden, entry.toList <:+: edge.included.toList →
        Excused rules header entry := by
  constructor
  · intro keeps entry forbidden inside
    apply Decidable.byContradiction
    intro notExcused
    exact keeps ⟨entry, forbidden, inside, notExcused⟩
  · rintro excused ⟨entry, forbidden, inside, notExcused⟩
    exact notExcused (excused entry forbidden inside)

/-- The edges that offend against a candidate's exceptions are those that break the
rules for its header. -/
theorem offends_allowedFor_iff {edge : IncludeEdge} :
    Offends rules (header.candidate rules).allowed edge ↔ Breaks rules header edge := by
  constructor
  · rintro ⟨entry, forbidden, notExcepted, inside⟩
    exact ⟨entry, forbidden, inside, fun excused => notExcepted (mem_allowedFor_iff.mpr excused)⟩
  · rintro ⟨entry, forbidden, inside, notExcused⟩
    exact ⟨entry, forbidden, fun excepted => notExcused (mem_allowedFor_iff.mp excepted), inside⟩

instance (rules : RuleSet) (header : HeaderFile) (edge : IncludeEdge) :
    Decidable (Breaks rules header edge) :=
  decidable_of_iff _ offends_allowedFor_iff

end IncludeGate
