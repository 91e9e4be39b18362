import IncludeGate.Proofs.Rules.Matching
import IncludeGate.Proofs.Sequence
import IncludeGate.Proofs.Text.Written
import IncludeGate.Settings
import Mathlib.Data.List.Basic

/-!
# Scopes that are declared again

The configuration file and the command line declare scopes one after another, and the same
text may be declared several times.  The rules have one scope for each text.  Its place is
that of the first declaration and its exceptions are those of the last one, so both the order
of the declarations and their content decide what a header may include.

Each declaration is added to the scopes merged so far.  What the merged scopes say of the
declarations is kept by every single addition, and the scope that counts for a header is then
found among the declarations themselves.
-/

namespace IncludeGate.Settings

open Text

/-! ## Declarations -/

/-- The scope that an entry of the configuration file declares. -/
def declaredByEntry (entry : AllowedEntry) : AllowScope :=
  ⟨entry.scope, .ofList entry.exceptions⟩

/-- The scope that a text with a colon declares: what stands before the first colon, with the
fields after it as exceptions. -/
def declaredBySpec (spec : String) : AllowScope :=
  ⟨String.ofList (spec.toList.takeWhile (· ≠ ':')),
    .ofList ((pieces (· == ':') (spec.toList.dropWhile (· ≠ ':')).tail).map String.ofList)⟩

/-- All scopes that are declared, in the order of their declaration. -/
def declarations (config : Config) (overrides : Overrides) : List AllowScope :=
  config.allowed.map declaredByEntry ++ overrides.allowed.map declaredBySpec

theorem scopeOfEntry_eq_ok {entry : AllowedEntry} (filled : entry.exceptions ≠ []) :
    scopeOfEntry entry = .ok (declaredByEntry entry) := by
  rw [scopeOfEntry, if_neg (by simpa using filled), declaredByEntry]

/-- A text with a colon is cut at the first one and then at all others. -/
theorem pieces_colon {text : List Char} (colon : ':' ∈ text) :
    pieces (· == ':') text =
      text.takeWhile (· ≠ ':') :: pieces (· == ':') (text.dropWhile (· ≠ ':')).tail := by
  obtain ⟨scope, fields, rfl, noColon⟩ := List.eq_append_cons_of_mem colon
  have solid : ∀ character ∈ scope, decide (character ≠ ':') = true := by
    intro character member
    exact decide_eq_true fun same => noColon (same ▸ member)
  have uncut : ∀ character ∈ scope, (character == ':') = false := by
    intro character member
    exact beq_eq_false_iff_ne.mpr (of_decide_eq_true (solid character member))
  rw [List.takeWhile_append_of_pos solid, List.dropWhile_append_of_pos solid,
    pieces_append uncut (pieces_cons_separator (by decide) fields)]
  simp

theorem scopeOfSpec_eq_ok {spec : String} (colon : ':' ∈ spec.toList) :
    scopeOfSpec spec = .ok (declaredBySpec spec) := by
  rw [scopeOfSpec, AllowScope.parse?, pieces_colon colon, declaredBySpec]
  cases fields : pieces (· == ':') (spec.toList.dropWhile (· ≠ ':')).tail with
  | nil => exact absurd fields (pieces_ne_nil _ _)
  | cons first rest => rfl

/-- If no declaration is faulty, the scopes are the declarations merged one by one. -/
theorem resolveScopes_eq_ok {config : Config} {overrides : Overrides}
    (filled : ∀ entry ∈ config.allowed, entry.exceptions ≠ [])
    (colons : ∀ spec ∈ overrides.allowed, ':' ∈ spec.toList) :
    resolveScopes config overrides =
      .ok ((declarations config overrides).foldl declareScope []) := by
  have entries : config.allowed.mapM scopeOfEntry = .ok (config.allowed.map declaredByEntry) :=
    Sequence.mapM_ok fun entry member => scopeOfEntry_eq_ok (filled entry member)
  have specs : overrides.allowed.mapM scopeOfSpec = .ok (overrides.allowed.map declaredBySpec) :=
    Sequence.mapM_ok fun spec member => scopeOfSpec_eq_ok (colons spec member)
  rw [resolveScopes, entries, specs, declarations]
  rfl

/-! ## Merged scopes -/

/-- The texts of scopes, in their order. -/
def texts (scopes : List AllowScope) : List String :=
  scopes.map (·.scope)

theorem texts_cons (scope : AllowScope) (scopes : List AllowScope) :
    texts (scope :: scopes) = scope.scope :: texts scopes := rfl

theorem texts_append (first second : List AllowScope) :
    texts (first ++ second) = texts first ++ texts second :=
  List.map_append

theorem texts_concat (scopes : List AllowScope) (scope : AllowScope) :
    texts (scopes ++ [scope]) = texts scopes ++ [scope.scope] :=
  texts_append scopes [scope]

theorem mem_texts_iff {scopes : List AllowScope} {text : String} :
    text ∈ texts scopes ↔ ∃ scope ∈ scopes, scope.scope = text :=
  List.mem_map

/-- The place of the first declaration for a text. -/
def firstPlace (declared : List AllowScope) (text : String) : Nat :=
  (texts declared).idxOf text

/-- A scope is as it was declared for the last time. -/
def IsLast (declared : List AllowScope) (scope : AllowScope) : Prop :=
  ∃ earlier later, declared = earlier ++ scope :: later ∧
    ∀ other ∈ later, other.scope ≠ scope.scope

/-- Scopes are what declarations amount to: there is one for each declared text, at the place
of its first declaration and with the exceptions of its last one. -/
structure Merges (declared merged : List AllowScope) : Prop where
  mem_iff : ∀ text, text ∈ texts merged ↔ text ∈ texts declared
  inOrder : (texts merged).Pairwise fun earlier later =>
    firstPlace declared earlier < firstPlace declared later
  last : ∀ scope ∈ merged, IsLast declared scope

section Places

variable {declared : List AllowScope} {scope : AllowScope} {text : String}

theorem firstPlace_concat_of_mem (known : text ∈ texts declared) :
    firstPlace (declared ++ [scope]) text = firstPlace declared text := by
  rw [firstPlace, texts_concat, List.idxOf_append_of_mem known, firstPlace]

theorem firstPlace_lt (known : text ∈ texts declared) :
    firstPlace declared text < (texts declared).length :=
  List.idxOf_lt_length_of_mem known

theorem firstPlace_concat_of_not_mem (fresh : scope.scope ∉ texts declared) :
    firstPlace (declared ++ [scope]) scope.scope = (texts declared).length := by
  rw [firstPlace, texts_concat, List.idxOf_append_of_notMem fresh, List.idxOf_cons_self,
    Nat.add_zero]

/-- The last declaration of a text stays the last one when another text is declared. -/
theorem IsLast.concat {other : AllowScope} (last : IsLast declared other)
    (differs : other.scope ≠ scope.scope) : IsLast (declared ++ [scope]) other := by
  obtain ⟨earlier, later, rfl, others⟩ := last
  refine ⟨earlier, later ++ [scope], by simp, ?_⟩
  intro third member
  rcases List.mem_append.mp member with before | new
  · exact others third before
  · rw [List.mem_singleton.mp new]
    exact differs.symm

theorem isLast_concat_self : IsLast (declared ++ [scope]) scope :=
  ⟨declared, [], rfl, fun _ member => absurd member List.not_mem_nil⟩

end Places

section Declare

variable {merged : List AllowScope} {scope : AllowScope}

/-- A text that has a scope keeps its place, and another one comes last. -/
theorem texts_declareScope (merged : List AllowScope) (scope : AllowScope) :
    texts (declareScope merged scope) =
      if scope.scope ∈ texts merged then texts merged else texts merged ++ [scope.scope] := by
  induction merged with
  | nil => rfl
  | cons first rest ih =>
      rw [declareScope, texts_cons]
      by_cases same : first.scope = scope.scope
      · have known : scope.scope ∈ first.scope :: texts rest := same ▸ List.mem_cons_self
        rw [if_pos same, if_pos known, texts_cons]
      · have known_iff : scope.scope ∈ first.scope :: texts rest ↔ scope.scope ∈ texts rest := by
          rw [List.mem_cons, or_iff_right (Ne.symm same)]
        rw [if_neg same, texts_cons, ih]
        simp only [known_iff]
        split
        · rfl
        · rfl

/-- After a declaration its text has that scope and no other. -/
theorem mem_declareScope {other : AllowScope} (distinct : (texts merged).Nodup)
    (member : other ∈ declareScope merged scope) :
    other = scope ∨ other ∈ merged ∧ other.scope ≠ scope.scope := by
  induction merged with
  | nil => exact .inl (List.mem_singleton.mp member)
  | cons first rest ih =>
      obtain ⟨fresh, restDistinct⟩ := List.nodup_cons.mp distinct
      rw [declareScope] at member
      by_cases same : first.scope = scope.scope
      · rw [if_pos same] at member
        rcases List.mem_cons.mp member with rfl | member
        · exact .inl (by rw [same])
        · refine .inr ⟨List.mem_cons_of_mem _ member, fun equal => fresh ?_⟩
          exact mem_texts_iff.mpr ⟨other, member, equal.trans same.symm⟩
      · rw [if_neg same] at member
        rcases List.mem_cons.mp member with rfl | member
        · exact .inr ⟨List.mem_cons_self, same⟩
        · rcases ih restDistinct member with new | ⟨old, differs⟩
          · exact .inl new
          · exact .inr ⟨List.mem_cons_of_mem _ old, differs⟩

end Declare

namespace Merges

variable {declared merged : List AllowScope}

/-- No text has two scopes, as no two texts are declared first at the same place. -/
theorem nodup (merges : Merges declared merged) : (texts merged).Nodup := by
  apply merges.inOrder.imp
  intro earlier later before same
  exact absurd before (by simp [same])

theorem nil : Merges [] [] where
  mem_iff _ := Iff.rfl
  inOrder := .nil
  last _ member := absurd member List.not_mem_nil

/-- One more declaration. -/
theorem declare (merges : Merges declared merged) (scope : AllowScope) :
    Merges (declared ++ [scope]) (declareScope merged scope) where
  mem_iff text := by
    rw [texts_declareScope, texts_concat, List.mem_append, ← merges.mem_iff text]
    split
    · rename_i known
      constructor
      · intro old
        exact .inl old
      · intro member
        cases member with
        | inl old => exact old
        | inr new => exact List.mem_singleton.mp new ▸ known
    · exact List.mem_append
  inOrder := by
    have kept : (texts merged).Pairwise fun earlier later =>
        firstPlace (declared ++ [scope]) earlier < firstPlace (declared ++ [scope]) later := by
      apply merges.inOrder.imp_of_mem
      intro earlier later earlierMember laterMember before
      rwa [firstPlace_concat_of_mem ((merges.mem_iff _).mp earlierMember),
        firstPlace_concat_of_mem ((merges.mem_iff _).mp laterMember)]
    rw [texts_declareScope]
    split
    · exact kept
    · rename_i fresh
      rw [merges.mem_iff] at fresh
      apply List.pairwise_append.mpr
      refine ⟨kept, List.pairwise_singleton _ _, ?_⟩
      intro earlier member new newMember
      have known := (merges.mem_iff earlier).mp member
      rw [List.mem_singleton.mp newMember, firstPlace_concat_of_mem known,
        firstPlace_concat_of_not_mem fresh]
      exact firstPlace_lt known
  last other member := by
    rcases mem_declareScope merges.nodup member with rfl | ⟨old, differs⟩
    · exact isLast_concat_self
    · exact (merges.last other old).concat differs

/-- Declarations that are merged one by one. -/
theorem foldl (further : List AllowScope) (merges : Merges declared merged) :
    Merges (declared ++ further) (further.foldl declareScope merged) := by
  induction further generalizing declared merged with
  | nil => rwa [List.append_nil]
  | cons scope further ih =>
      rw [List.append_cons]
      exact ih (merges.declare scope)

end Merges

/-! ## Exceptions for a header -/

/-- The exceptions that declarations make for a header.  Of the declared texts that end its
directory or its path the one that was declared first counts, as it was declared last. -/
inductive Excepts (declared : List AllowScope) (directory path : String) : StringSet → Prop where
  | declared {scope : AllowScope} :
      IsLast declared scope →
      scope.Ends directory path →
      (∀ other ∈ declared, other.Ends directory path →
        firstPlace declared scope.scope ≤ firstPlace declared other.scope) →
      Excepts declared directory path scope.exceptions
  | none :
      (∀ other ∈ declared, ¬ other.Ends directory path) →
      Excepts declared directory path .empty

theorem Merges.excepts {declared : List AllowScope} {rules : RuleSet}
    (merges : Merges declared rules.allowed) (directory path : String) :
    Excepts declared directory path (rules.allowedFor directory path) := by
  -- Whether a scope ends a directory or a path depends on its text alone.
  have exists_merged : ∀ other ∈ declared, ∃ scope ∈ rules.allowed, scope.scope = other.scope := by
    intro other member
    apply mem_texts_iff.mp
    rw [merges.mem_iff]
    exact mem_texts_iff.mpr ⟨other, member, rfl⟩
  rw [RuleSet.allowedFor]
  cases found : RuleSet.scopeFor? rules.allowed directory path with
  | none =>
      have noneEnds := RuleSet.scopeFor?_eq_none_iff.mp found
      apply Excepts.none
      intro other member ends
      obtain ⟨scope, scopeMember, same⟩ := exists_merged other member
      apply noneEnds scope scopeMember
      rwa [AllowScope.Ends, same]
  | some scope =>
      obtain ⟨ends, earlier, later, split, noneEnds⟩ := RuleSet.scopeFor?_eq_some_iff.mp found
      have inOrder := merges.inOrder
      rw [split, texts_append, texts_cons] at inOrder
      have before := (List.pairwise_cons.mp (List.pairwise_append.mp inOrder).2.1).1
      apply Excepts.declared (merges.last scope (by simp [split])) ends
      intro other member otherEnds
      obtain ⟨merged, mergedMember, same⟩ := exists_merged other member
      rw [AllowScope.Ends, ← same] at otherEnds
      rw [← same]
      rw [split, List.mem_append, List.mem_cons] at mergedMember
      rcases mergedMember with atEarlier | rfl | atLater
      · exact absurd otherEnds (noneEnds merged atEarlier)
      · exact Nat.le_refl _
      · exact Nat.le_of_lt (before _ (mem_texts_iff.mpr ⟨merged, atLater, rfl⟩))

/-! ## Resolved rules -/

/-- Settings without faults have one scope for each text that is declared, in the order of the
first declarations and with the exceptions of the last ones; and the exceptions for a header
are those of the text that ends its directory or its path and was declared first. -/
theorem resolve_merges_declarations {config : Config} {overrides : Overrides}
    (configDirectory : String)
    (filled : ∀ entry ∈ config.allowed, entry.exceptions ≠ [])
    (colons : ∀ spec ∈ overrides.allowed, ':' ∈ spec.toList)
    (somewhere : config.directories ++ overrides.directories ≠ []) :
    ∃ settings, resolve config overrides configDirectory = .ok settings ∧
      (texts settings.rules.allowed).Nodup ∧
      Merges (declarations config overrides) settings.rules.allowed ∧
      ∀ directory path, Excepts (declarations config overrides) directory path
        (settings.rules.allowedFor directory path) := by
  have roots : (resolveRoots config overrides configDirectory).isEmpty = false := by
    simpa [resolveRoots] using somewhere
  have merges := Merges.nil.foldl (declarations config overrides)
  rw [resolve, resolveScopes_eq_ok filled colons]
  simp only [bind, Except.bind, roots]
  exact ⟨_, rfl, merges.nodup, merges, merges.excepts⟩

/-- A configuration file that declares two scopes. -/
def twoScopes : Config :=
  { Config.empty with
    directories := ["include"]
    allowed := [⟨"pub", ["detail/"]⟩, ⟨"lib/pub", ["priv/"]⟩] }

/-- A command line that declares the first scope of the file again, and a third one. -/
def redeclaring : Overrides :=
  ⟨[], [], ["pub:priv/:gen/", "src:"], [], [], none, []⟩

/-- The scopes of both.  The first one has its old place and its new exceptions. -/
def mergedScopes : List AllowScope :=
  [⟨"pub", .ofList ["priv/", "gen/"]⟩, ⟨"lib/pub", .ofList ["priv/"]⟩, ⟨"src", .ofList [""]⟩]

theorem resolve_redeclaring :
    ∃ settings, resolve twoScopes redeclaring "/w" = .ok settings ∧
      settings.rules.allowed = mergedScopes ∧
      Merges (declarations twoScopes redeclaring) mergedScopes ∧
      Excepts (declarations twoScopes redeclaring) "/w/lib/pub" "/w/lib/pub/x.h"
        (.ofList ["gen/", "priv/"]) := by
  have filled : ∀ entry ∈ twoScopes.allowed, entry.exceptions ≠ [] := by decide
  have colons : ∀ spec ∈ redeclaring.allowed, ':' ∈ spec.toList := by decide
  obtain ⟨settings, resolved, -, merges, excepts⟩ :=
    resolve_merges_declarations "/w" filled colons (by decide)
  have scopes : (resolve twoScopes redeclaring "/w").map (·.rules.allowed) = .ok mergedScopes := by
    rfl
  rw [resolved] at scopes
  have allowed : settings.rules.allowed = mergedScopes := Except.ok.inj scopes
  have header := excepts "/w/lib/pub" "/w/lib/pub/x.h"
  rw [RuleSet.allowedFor, allowed] at header
  exact ⟨settings, resolved, allowed, allowed ▸ merges, header⟩

end IncludeGate.Settings
