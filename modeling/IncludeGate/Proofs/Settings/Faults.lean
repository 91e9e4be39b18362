import IncludeGate.Proofs.Rules.Specs
import IncludeGate.Proofs.Sequence
import IncludeGate.Settings

/-!
# Faults of a configuration

Scopes are declared by the entries of the configuration file and then by the texts of the
command line.  An entry without exceptions is a fault, and so is a text without a colon.  The
first fault in this order is the one that counts, whatever else is wrong or missing; only a
configuration whose declarations are all in order can lack directories.  There is no other
reason to refuse a configuration, so one that has neither fault is resolved.

Both kinds of declaration are taken as one sequence here, in which each element is read or
refused on its own.
-/

namespace IncludeGate.Settings

open Text

/-! ## Declarations in order -/

/-- Where a scope is declared. -/
inductive Declaration where
  /-- An entry of the configuration file. -/
  | entry (entry : AllowedEntry)
  /-- A text of the command line. -/
  | spec (spec : String)

/-- The scope that is declared. -/
def Declaration.scope : Declaration → Except ConfigError AllowScope
  | .entry declared => scopeOfEntry declared
  | .spec text => scopeOfSpec text

/-- What is declared, in the order in which it counts. -/
def declaredInOrder (config : Config) (overrides : Overrides) : List Declaration :=
  config.allowed.map .entry ++ overrides.allowed.map .spec

/-- What is wrong with a declaration. -/
inductive Declaration.HasFault : Declaration → ConfigError → Prop where
  | bare {entry : AllowedEntry} :
      entry.exceptions = [] → HasFault (.entry entry) (.emptyAllowed entry.scope)
  | noColon {spec : String} :
      ':' ∉ spec.toList → HasFault (.spec spec) (.malformedAllowed spec)

/-- No declaration is faulty. -/
def AreFaultless (declared : List Declaration) : Prop :=
  ∀ declaration ∈ declared, ∀ error, ¬ declaration.HasFault error

/-- The fault of the first faulty declaration. -/
def IsFirstFault (declared : List Declaration) (error : ConfigError) : Prop :=
  ∃ earlier declaration later, declared = earlier ++ declaration :: later ∧
    AreFaultless earlier ∧ declaration.HasFault error

theorem scopeOfEntry_eq_error_iff {entry : AllowedEntry} {error : ConfigError} :
    scopeOfEntry entry = .error error ↔ (Declaration.entry entry).HasFault error := by
  rw [scopeOfEntry]
  split
  · rename_i empty
    rw [List.isEmpty_iff] at empty
    constructor
    · intro failed
      cases failed
      exact .bare empty
    · intro fault
      cases fault
      rfl
  · rename_i filled
    constructor
    · intro failed
      contradiction
    · intro fault
      cases fault with
      | bare empty => exact absurd (List.isEmpty_iff.mpr empty) filled

theorem scopeOfSpec_eq_error_iff {spec : String} {error : ConfigError} :
    scopeOfSpec spec = .error error ↔ (Declaration.spec spec).HasFault error := by
  rw [scopeOfSpec]
  cases read : AllowScope.parse? spec with
  | some parsed =>
      have colon := AllowScope.exists_parse?_iff.mp ⟨parsed, read⟩
      constructor
      · intro failed
        contradiction
      · intro fault
        cases fault with
        | noColon none => exact absurd colon none
  | none =>
      have noColon : ':' ∉ spec.toList := by
        intro colon
        obtain ⟨parsed, found⟩ := AllowScope.exists_parse?_iff.mpr colon
        rw [read] at found
        contradiction
      constructor
      · intro failed
        cases failed
        exact .noColon noColon
      · intro fault
        cases fault
        rfl

theorem Declaration.scope_eq_error_iff {declaration : Declaration} {error : ConfigError} :
    declaration.scope = .error error ↔ declaration.HasFault error := by
  cases declaration with
  | entry entry => exact scopeOfEntry_eq_error_iff
  | spec spec => exact scopeOfSpec_eq_error_iff

/-- A declaration is read unless it has a fault. -/
theorem Declaration.exists_scope_iff {declaration : Declaration} :
    (∃ scope, declaration.scope = .ok scope) ↔ ∀ error, ¬ declaration.HasFault error := by
  simp only [← scope_eq_error_iff]
  cases declaration.scope with
  | error found => simp
  | ok scope => simp

/-! ## The first fault -/

variable {declared : List Declaration} {error : ConfigError}

theorem mapM_scope_eq_error_iff :
    declared.mapM Declaration.scope = .error error ↔ IsFirstFault declared error := by
  constructor
  · intro failed
    obtain ⟨earlier, declaration, later, split, succeed, fails⟩ :=
      Sequence.exists_of_mapM_error failed
    refine ⟨earlier, declaration, later, split, ?_, Declaration.scope_eq_error_iff.mp fails⟩
    intro other member
    exact Declaration.exists_scope_iff.mp (succeed other member)
  · rintro ⟨earlier, declaration, later, rfl, faultless, fault⟩
    apply Sequence.mapM_error
    · intro other member
      exact Declaration.exists_scope_iff.mpr (faultless other member)
    · exact Declaration.scope_eq_error_iff.mpr fault

/-- Among faulty declarations there is a first one. -/
theorem areFaultless_iff : AreFaultless declared ↔ ∀ error, ¬ IsFirstFault declared error := by
  constructor
  · rintro faultless error ⟨earlier, declaration, later, rfl, -, fault⟩
    exact faultless declaration (by simp) error fault
  · intro none declaration member error fault
    have fails := Declaration.scope_eq_error_iff.mpr fault
    obtain ⟨first, failed⟩ := Sequence.exists_mapM_error member ⟨error, fails⟩
    exact none first (mapM_scope_eq_error_iff.mp failed)

variable {config : Config} {overrides : Overrides} {configDirectory : String}

/-- File and command line are read as one sequence. -/
theorem resolveScopes_eq :
    resolveScopes config overrides =
      ((declaredInOrder config overrides).mapM Declaration.scope).map
        (·.foldl declareScope []) := by
  have entries : (config.allowed.map Declaration.entry).mapM Declaration.scope =
      config.allowed.mapM scopeOfEntry := by
    rw [List.mapM_map]
    rfl
  have specs : (overrides.allowed.map Declaration.spec).mapM Declaration.scope =
      overrides.allowed.mapM scopeOfSpec := by
    rw [List.mapM_map]
    rfl
  rw [resolveScopes, declaredInOrder, List.mapM_append, entries, specs]
  cases config.allowed.mapM scopeOfEntry with
  | error fault => rfl
  | ok declared =>
      cases overrides.allowed.mapM scopeOfSpec with
      | error fault => rfl
      | ok further => rfl

/-- The scopes are refused for the first fault, and for no other reason. -/
theorem resolveScopes_eq_error_iff :
    resolveScopes config overrides = .error error ↔
      IsFirstFault (declaredInOrder config overrides) error := by
  rw [resolveScopes_eq, Sequence.map_eq_error_iff, mapM_scope_eq_error_iff]

/-! ## Directories -/

/-- Where a directory of the configuration file is.  An absolute one is where it says, and any
other one is below the directory of the file, with one slash between them. -/
inductive Anchors (base : String) : String → String → Prop where
  | absolute {directory : String} :
      directory.toList.head? = some '/' → Anchors base directory directory
  | joined {directory : String} :
      directory.toList.head? ≠ some '/' → (base = "" ∨ base.toList.getLast? = some '/') →
      Anchors base directory (base ++ directory)
  | separated {directory : String} :
      directory.toList.head? ≠ some '/' → base ≠ "" → base.toList.getLast? ≠ some '/' →
      Anchors base directory (base ++ "/" ++ directory)

theorem anchors_join (base directory : String) :
    Anchors base directory (Path.join base directory) := by
  unfold Path.join
  split
  · rename_i absolute
    exact .absolute (eq_of_beq absolute)
  rename_i relative
  have noSlash : directory.toList.head? ≠ some '/' := by
    intro slash
    exact relative (beq_iff_eq.mpr slash)
  split
  · rename_i closed
    rw [String.isEmpty_iff] at closed
    exact .joined noSlash closed
  · rename_i apart
    rw [String.isEmpty_iff, not_or] at apart
    exact .separated noSlash apart.1 apart.2

/-- The roots are the directories of the configuration file, each where it is, and those of
the command line as they are given. -/
def AreRoots (config : Config) (overrides : Overrides) (configDirectory : String)
    (roots : List String) : Prop :=
  ∃ anchored, List.Forall₂ (Anchors configDirectory) config.directories anchored ∧
    roots = anchored ++ overrides.directories

theorem areRoots_resolveRoots (config : Config) (overrides : Overrides)
    (configDirectory : String) :
    AreRoots config overrides configDirectory
      (resolveRoots config overrides configDirectory) := by
  refine ⟨_, ?_, rfl⟩
  rw [List.forall₂_map_right_iff]
  exact List.forall₂_same.mpr fun directory _ => anchors_join configDirectory directory

/-! ## Resolved settings -/

theorem resolveRoots_eq_nil_iff (config : Config) (overrides : Overrides)
    (configDirectory : String) :
    resolveRoots config overrides configDirectory = [] ↔
      config.directories = [] ∧ overrides.directories = [] := by
  rw [resolveRoots, List.append_eq_nil_iff, List.map_eq_nil_iff]

/-- Faulty scopes are reported first. -/
theorem resolve_of_faulty (faulty : resolveScopes config overrides = .error error) :
    resolve config overrides configDirectory = .error error := by
  rw [resolve, faulty]
  rfl

theorem resolve_of_nowhere {allowed : List AllowScope}
    (scopes : resolveScopes config overrides = .ok allowed)
    (nowhere : resolveRoots config overrides configDirectory = []) :
    resolve config overrides configDirectory = .error .noDirectories := by
  rw [resolve, scopes]
  simp only [nowhere]
  rfl

theorem exists_resolve_eq_ok {allowed : List AllowScope}
    (scopes : resolveScopes config overrides = .ok allowed)
    (somewhere : resolveRoots config overrides configDirectory ≠ []) :
    ∃ settings, resolve config overrides configDirectory = .ok settings ∧
      settings.scan.roots = resolveRoots config overrides configDirectory := by
  have filled : (resolveRoots config overrides configDirectory).isEmpty = false := by
    rwa [List.isEmpty_eq_false_iff]
  rw [resolve, scopes]
  simp only [bind, Except.bind, filled]
  exact ⟨_, rfl, rfl⟩

/-- A configuration is refused for its first fault, whatever else is wrong with it; without a
fault it is refused exactly when no directory is given; and otherwise it is resolved, and the
roots are all directories that are given, in their order. -/
theorem resolve_outcome_iff (config : Config) (overrides : Overrides)
    (configDirectory : String) :
    (∀ error, resolve config overrides configDirectory = .error error ↔
      IsFirstFault (declaredInOrder config overrides) error ∨
        AreFaultless (declaredInOrder config overrides) ∧
          (config.directories = [] ∧ overrides.directories = []) ∧ error = .noDirectories) ∧
    ((∃ settings, resolve config overrides configDirectory = .ok settings ∧
        AreRoots config overrides configDirectory settings.scan.roots) ↔
      AreFaultless (declaredInOrder config overrides) ∧
        ¬ (config.directories = [] ∧ overrides.directories = [])) := by
  rw [areFaultless_iff, ← resolveRoots_eq_nil_iff config overrides configDirectory]
  simp only [← resolveScopes_eq_error_iff]
  cases scopes : resolveScopes config overrides with
  | error fault =>
      rw [resolve_of_faulty scopes]
      simp
  | ok allowed =>
      by_cases nowhere : resolveRoots config overrides configDirectory = []
      · rw [resolve_of_nowhere scopes nowhere]
        simp [nowhere, eq_comm]
      · obtain ⟨settings, resolved, roots⟩ := exists_resolve_eq_ok scopes nowhere
        have areRoots := areRoots_resolveRoots config overrides configDirectory
        rw [← roots] at areRoots
        rw [resolved]
        simp [nowhere, areRoots]

end IncludeGate.Settings
