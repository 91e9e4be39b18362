import IncludeGate.Text.Pieces
import IncludeGate.Text.Search
import IncludeGate.Text.StringSet

/-!
# Inclusion rules

A rule set forbids substrings of included paths.  Scopes take some of these
entries back for a part of the tree: a scope applies to a header when the
header's directory or its full path ends with the scope's text, and of the
scopes that apply only the first one counts.
-/

namespace IncludeGate

open Text

/-- Exceptions for the headers whose directory or path ends with a text. -/
structure AllowScope where
  /-- The ending. -/
  scope : String
  /-- Entries that do not count as forbidden. -/
  exceptions : StringSet
  deriving DecidableEq, Repr

/-- Whether a text ends with another one. -/
def endsWith (text ending : String) : Bool :=
  ending.toList.isSuffixOf text.toList

@[simp] theorem endsWith_iff {text ending : String} :
    endsWith text ending = true ↔ ending.toList <:+ text.toList :=
  List.isSuffixOf_iff_suffix

/-- Whether a scope applies to the header at a path in a directory. -/
def AllowScope.appliesTo (scope : AllowScope) (directory path : String) : Bool :=
  endsWith directory scope.scope || endsWith path scope.scope

/-- What may not be included, and where it may be included after all. -/
structure RuleSet where
  /-- Substrings that no included path may have. -/
  forbidden : StringSet
  /-- Scopes in the order of their declaration. -/
  allowed : List AllowScope
  deriving DecidableEq, Repr

namespace RuleSet

/-- The first scope that applies to a header. -/
def scopeFor? (allowed : List AllowScope) (directory path : String) : Option AllowScope :=
  allowed.find? (·.appliesTo directory path)

/-- The exceptions for a header: those of the first scope that applies, or none. -/
def allowedFor (rules : RuleSet) (directory path : String) : StringSet :=
  match scopeFor? rules.allowed directory path with
  | some scope => scope.exceptions
  | none => .empty

/-- The forbidden entries that remain with the given exceptions. -/
def effectiveForbidden (rules : RuleSet) (exceptions : StringSet) : StringSet :=
  rules.forbidden \ exceptions

/-- The forbidden entries that remain for a header, straight from the scopes. -/
def forbiddenAt (directory path : String) (allowed : List AllowScope)
    (forbidden : StringSet) : StringSet :=
  match scopeFor? allowed directory path with
  | some scope => forbidden \ scope.exceptions
  | none => forbidden

/-- The first forbidden entry that occurs in an included path. -/
def forbiddenMatch? (included : String) (forbidden : StringSet) : Option String :=
  forbidden.toList.find? fun entry => occursIn entry.toList included.toList

end RuleSet

/-- Read `SCOPE:ENTRY:ENTRY…`.  The text before the first colon is the scope, and
every field after it is an exception, empty ones included; a text without a colon
is no scope. -/
def AllowScope.parse? (spec : String) : Option AllowScope :=
  match pieces (· == ':') spec.toList with
  | scope :: first :: rest =>
      some ⟨String.ofList scope, .ofList ((first :: rest).map String.ofList)⟩
  | _ => none

end IncludeGate
