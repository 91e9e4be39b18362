import IncludeGate.Proofs.Rules.Matching
import IncludeGate.Proofs.Text.ByteOrder

/-!
# What remains forbidden

The entries that remain forbidden for a header are found in two ways.  A scan looks up the
exceptions of each header and keeps them, and they are taken away when the header is checked;
or they are taken away at once.  Both depend on the scopes only through the first one that
applies, so both give the same entries, and nothing that leaves this scope first makes a
difference.

Of the entries that remain, an included path is held against the least one that occurs in it.
-/

namespace IncludeGate

open Text

/-- In a set, the first string of some kind is the one with the least octets. -/
theorem StringSet.find?_eq_some_iff {entries : StringSet} {accept : String → Bool}
    {entry : String} :
    entries.toList.find? accept = some entry ↔
      entry ∈ entries ∧ accept entry = true ∧
        ∀ other ∈ entries, accept other = true → Utf8.ofString entry ≤ Utf8.ofString other := by
  have least {first : String} (found : entries.toList.find? accept = some first) :
      ∀ other ∈ entries, accept other = true → Utf8.ofString first ≤ Utf8.ofString other := by
    intro other member accepted
    obtain ⟨-, before, after, listed, rejected⟩ := List.find?_eq_some_iff_append.mp found
    have increasing := entries.increasing
    rw [← mem_toList] at member
    rw [listed] at increasing member
    rcases List.mem_append.mp member with early | late
    · have refused := rejected other early
      rw [accepted] at refused
      contradiction
    · rcases List.mem_cons.mp late with rfl | later
      · exact List.le_refl _
      · have above := (List.pairwise_cons.mp (List.pairwise_append.mp increasing).2.1).1
        exact List.le_of_lt (Utf8.ofString_lt (above other later))
  constructor
  · intro found
    exact ⟨List.mem_of_find?_eq_some found, List.find?_some found, least found⟩
  · rintro ⟨member, accepted, lowest⟩
    cases found : entries.toList.find? accept with
    | none => exact absurd accepted (List.find?_eq_none.mp found entry member)
    | some first =>
        have below := least found entry member accepted
        have above := lowest first (List.mem_of_find?_eq_some found) (List.find?_some found)
        rw [Utf8.ofString_injective (List.le_antisymm below above)]

namespace RuleSet

variable {rules : RuleSet} {directory path entry : String}

/-- The entries that remain forbidden when the exceptions of a header are looked up first. -/
def remaining (rules : RuleSet) (directory path : String) : StringSet :=
  rules.effectiveForbidden (rules.allowedFor directory path)

/-- The same rules with other scopes. -/
def withScopes (rules : RuleSet) (allowed : List AllowScope) : RuleSet :=
  { rules with allowed }

/-- The second list has all scopes of the first one in their order, and others anywhere between
them, which end neither the directory nor the path. -/
inductive Padded (directory path : String) : List AllowScope → List AllowScope → Prop where
  | nil : Padded directory path [] []
  | keep {scope : AllowScope} {shorter longer : List AllowScope} :
      Padded directory path shorter longer →
      Padded directory path (scope :: shorter) (scope :: longer)
  | insert {scope : AllowScope} {shorter longer : List AllowScope} :
      ¬ scope.Ends directory path → Padded directory path shorter longer →
      Padded directory path shorter (scope :: longer)

/-- The entry of a set that occurs in an included path and comes before all others that do, in
the order of octets. -/
structure IsLeastMatch (included : String) (entries : StringSet) (entry : String) : Prop where
  member : entry ∈ entries
  inside : entry.toList <:+: included.toList
  least : ∀ other ∈ entries, other.toList <:+: included.toList →
    Utf8.ofString entry ≤ Utf8.ofString other

/-! ## Both ways -/

theorem remaining_eq_forbiddenAt :
    rules.remaining directory path =
      forbiddenAt directory path rules.allowed rules.forbidden := by
  rw [remaining, allowedFor, forbiddenAt, effectiveForbidden]
  cases scopeFor? rules.allowed directory path with
  | some scope => rfl
  | none =>
      apply StringSet.ext
      simp

theorem mem_remaining_iff :
    entry ∈ rules.remaining directory path ↔
      entry ∈ rules.forbidden ∧ ¬ IsExcepted rules.allowed directory path entry := by
  rw [remaining, effectiveForbidden, StringSet.mem_sdiff, mem_allowedFor_iff]

/-! ## Other scopes -/

theorem remaining_withScopes {allowed : List AllowScope}
    (first : scopeFor? allowed directory path = scopeFor? rules.allowed directory path) :
    (rules.withScopes allowed).remaining directory path = rules.remaining directory path := by
  rw [remaining_eq_forbiddenAt, remaining_eq_forbiddenAt, withScopes, forbiddenAt, forbiddenAt,
    first]

/-- The search does not go past a scope that applies. -/
theorem scopeFor?_append_cons {scope : AllowScope} (ends : scope.Ends directory path)
    (earlier later : List AllowScope) :
    scopeFor? (earlier ++ scope :: later) directory path =
      scopeFor? (earlier ++ [scope]) directory path := by
  have applies := AllowScope.appliesTo_iff_ends.mpr ends
  simp only [scopeFor?, List.find?_append, List.find?_cons, applies]

/-- The search passes over scopes that do not apply. -/
theorem Padded.scopeFor?_eq {shorter longer : List AllowScope}
    (padded : Padded directory path shorter longer) :
    scopeFor? longer directory path = scopeFor? shorter directory path := by
  induction padded with
  | nil => rfl
  | @keep scope shorter longer padded ih =>
      rw [scopeFor?, scopeFor?, List.find?_cons, List.find?_cons]
      split
      · rfl
      · exact ih
  | insert idle padded ih =>
      rw [← AllowScope.appliesTo_iff_ends, Bool.not_eq_true] at idle
      rw [scopeFor?, List.find?_cons, idle]
      exact ih

/-! ## Matches -/

theorem forbiddenMatch?_eq_some_iff {included : String} {entries : StringSet} :
    forbiddenMatch? included entries = some entry ↔ IsLeastMatch included entries entry := by
  rw [forbiddenMatch?, StringSet.find?_eq_some_iff]
  simp only [occursIn_iff_isInfix]
  exact ⟨fun ⟨member, inside, least⟩ => ⟨member, inside, least⟩,
    fun ⟨member, inside, least⟩ => ⟨member, inside, least⟩⟩

theorem forbiddenMatch?_eq_none_iff {included : String} {entries : StringSet} :
    forbiddenMatch? included entries = none ↔
      ∀ entry ∈ entries, ¬ entry.toList <:+: included.toList := by
  rw [forbiddenMatch?, List.find?_eq_none]
  simp only [occursIn_iff_isInfix, StringSet.mem_toList]

/-- An entry remains forbidden unless the first scope that applies excepts it, whether the
exceptions are looked up beforehand or not.  The scopes after one that applies can be replaced,
and scopes that do not apply can be put in or left out anywhere, and the same entries remain.
A path is held against the least of them that occurs in it, if there is one. -/
theorem remaining_of_firstScope (rules : RuleSet) (directory path : String) :
    rules.effectiveForbidden (rules.allowedFor directory path) =
        forbiddenAt directory path rules.allowed rules.forbidden ∧
      (∀ entry, entry ∈ rules.remaining directory path ↔
        entry ∈ rules.forbidden ∧ ¬ IsExcepted rules.allowed directory path entry) ∧
      (∀ earlier scope later, rules.allowed = earlier ++ scope :: later →
        scope.Ends directory path → ∀ others,
          (rules.withScopes (earlier ++ scope :: others)).remaining directory path =
            rules.remaining directory path) ∧
      (∀ allowed,
        Padded directory path rules.allowed allowed ∨ Padded directory path allowed rules.allowed →
          (rules.withScopes allowed).remaining directory path =
            rules.remaining directory path) ∧
      ∀ included,
        (∀ entry, forbiddenMatch? included (rules.remaining directory path) = some entry ↔
          IsLeastMatch included (rules.remaining directory path) entry) ∧
        (forbiddenMatch? included (rules.remaining directory path) = none ↔
          ∀ entry ∈ rules.remaining directory path, ¬ entry.toList <:+: included.toList) := by
  refine ⟨remaining_eq_forbiddenAt, fun _ => mem_remaining_iff, ?_, ?_, fun _ =>
    ⟨fun _ => forbiddenMatch?_eq_some_iff, forbiddenMatch?_eq_none_iff⟩⟩
  · intro earlier scope later declared ends others
    apply remaining_withScopes
    rw [declared, scopeFor?_append_cons ends earlier others,
      scopeFor?_append_cons ends earlier later]
  · intro allowed padded
    apply remaining_withScopes
    rcases padded with padded | padded
    · exact padded.scopeFor?_eq
    · exact padded.scopeFor?_eq.symm

/-- The second scope is the first one that applies in `/w/src/pub`, and the third one would
apply there too. -/
def overlappingRules : RuleSet where
  forbidden := .ofList ["priv/", "internal", "detail"]
  allowed :=
    [⟨"test", .ofList ["detail"]⟩, ⟨"src/pub", .ofList ["priv/"]⟩, ⟨"pub", .ofList ["internal"]⟩]

theorem remaining_overlappingRules :
    let scope : AllowScope := ⟨"src/pub", .ofList ["priv/"]⟩
    scope.Ends "/w/src/pub" "/w/src/pub/a.h" ∧
      Padded "/w/src/pub" "/w/src/pub/a.h" (scope :: [⟨"pub", .ofList ["internal"]⟩])
        overlappingRules.allowed ∧
      (overlappingRules.withScopes [⟨"test", .ofList ["detail"]⟩, scope]).remaining
        "/w/src/pub" "/w/src/pub/a.h" = .ofList ["internal", "detail"] ∧
      (overlappingRules.withScopes (scope :: [⟨"pub", .ofList ["internal"]⟩])).remaining
        "/w/src/pub" "/w/src/pub/a.h" = .ofList ["internal", "detail"] ∧
      IsLeastMatch "/w/internal/detail.h"
        (overlappingRules.remaining "/w/src/pub" "/w/src/pub/a.h") "detail" := by
  intro scope
  obtain ⟨-, -, replaced, padded, matched⟩ :=
    remaining_of_firstScope overlappingRules "/w/src/pub" "/w/src/pub/a.h"
  have ends : scope.Ends "/w/src/pub" "/w/src/pub/a.h" :=
    AllowScope.appliesTo_iff_ends.mp (by decide)
  have idle : ¬ (⟨"test", .ofList ["detail"]⟩ : AllowScope).Ends "/w/src/pub" "/w/src/pub/a.h" := by
    rw [← AllowScope.appliesTo_iff_ends]
    decide
  have shorter : Padded "/w/src/pub" "/w/src/pub/a.h" (scope :: [⟨"pub", .ofList ["internal"]⟩])
      overlappingRules.allowed :=
    .insert idle (.keep (.keep .nil))
  have found : overlappingRules.remaining "/w/src/pub" "/w/src/pub/a.h" =
      .ofList ["internal", "detail"] := by decide
  refine ⟨ends, shorter, ?_, ?_, ?_⟩
  · exact (replaced [_] scope _ rfl ends []).trans found
  · exact (padded _ (.inr shorter)).trans found
  · exact ((matched "/w/internal/detail.h").1 "detail").mp (by decide)

end RuleSet

end IncludeGate
