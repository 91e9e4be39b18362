import IncludeGate.Rules

/-!
# The scope that counts

The text of a scope may end the directory of a header, or its path.  Of the scopes that
end one of them only the first counts, and the search for it is told here in terms of the
list of scopes alone; so are the exceptions that it makes.
-/

namespace IncludeGate

variable {allowed : List AllowScope} {scope : AllowScope} {directory path entry : String}

/-- The text of a scope ends a directory or the path of a header in it. -/
def AllowScope.Ends (scope : AllowScope) (directory path : String) : Prop :=
  scope.scope.toList <:+ directory.toList ∨ scope.scope.toList <:+ path.toList

theorem AllowScope.appliesTo_iff_ends :
    scope.appliesTo directory path = true ↔ scope.Ends directory path := by
  rw [appliesTo, Bool.or_eq_true, endsWith_iff, endsWith_iff, Ends]

namespace RuleSet

/-- The search stops at a scope that applies and has none before it that does. -/
theorem scopeFor?_eq_some_iff :
    scopeFor? allowed directory path = some scope ↔
      scope.Ends directory path ∧ ∃ earlier later, allowed = earlier ++ scope :: later ∧
        ∀ other ∈ earlier, ¬ other.Ends directory path := by
  simp only [scopeFor?, List.find?_eq_some_iff_append, Bool.not_eq_true', ← Bool.not_eq_true,
    AllowScope.appliesTo_iff_ends]

theorem scopeFor?_eq_none_iff :
    scopeFor? allowed directory path = none ↔
      ∀ scope ∈ allowed, ¬ scope.Ends directory path := by
  simp only [scopeFor?, List.find?_eq_none, AllowScope.appliesTo_iff_ends]

/-- The first scope that ends a directory or path excepts an entry. -/
def IsExcepted (allowed : List AllowScope) (directory path entry : String) : Prop :=
  ∃ earlier scope later, allowed = earlier ++ scope :: later ∧
    (∀ other ∈ earlier, ¬ other.Ends directory path) ∧ scope.Ends directory path ∧
    entry ∈ scope.exceptions

theorem isExcepted_iff :
    IsExcepted allowed directory path entry ↔
      ∃ scope, scopeFor? allowed directory path = some scope ∧ entry ∈ scope.exceptions := by
  constructor
  · rintro ⟨earlier, scope, later, declared, others, ends, excepted⟩
    exact ⟨scope, scopeFor?_eq_some_iff.mpr ⟨ends, earlier, later, declared, others⟩, excepted⟩
  · rintro ⟨scope, first, excepted⟩
    obtain ⟨ends, earlier, later, declared, others⟩ := scopeFor?_eq_some_iff.mp first
    exact ⟨earlier, scope, later, declared, others, ends, excepted⟩

theorem mem_allowedFor_iff {rules : RuleSet} :
    entry ∈ rules.allowedFor directory path ↔ IsExcepted rules.allowed directory path entry := by
  rw [isExcepted_iff, allowedFor]
  cases scopeFor? rules.allowed directory path with
  | none => simp
  | some scope => simp

end RuleSet

end IncludeGate
