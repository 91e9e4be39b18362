import IncludeGate.Location
import IncludeGate.Text.Numeral
import IncludeGate.Text.Pieces
import IncludeGate.Text.Search

/-!
# Diagnostics of a compiler

A diagnostic line reads `FILE:LINE:COLUMN: SEVERITY: MESSAGE`, and the column
may be missing.  `Diagnostic.parse?` reads one line and `Diagnostic.list` a
whole stream, in which source excerpts, carets, summaries and messages without a
place in a file are skipped.  A note that follows another diagnostic belongs to
that one and is left out; a note with nothing before it stands for itself.
-/

namespace IncludeGate

open Text

/-- How serious a diagnostic is, in the vocabulary of compilers. -/
inductive Severity where
  | note
  | warning
  | error
  | fatal
  deriving DecidableEq, Repr

namespace Severity

/-- All severities, the most serious one last. -/
def all : List Severity := [.note, .warning, .error, .fatal]

/-- The words that compilers print. -/
def label : Severity → String
  | note => "note"
  | warning => "warning"
  | error => "error"
  | fatal => "fatal error"

/-- The severity that has the given label. -/
def ofLabel? (text : String) : Option Severity :=
  all.find? (·.label = text)

/-- The place in the order of seriousness. -/
def rank : Severity → Nat
  | note => 0
  | warning => 1
  | error => 2
  | fatal => 3

instance : LE Severity where
  le left right := left.rank ≤ right.rank

instance (left right : Severity) : Decidable (left ≤ right) :=
  inferInstanceAs (Decidable (left.rank ≤ right.rank))

/-- The text that separates place and message in a diagnostic line. -/
def marker (severity : Severity) : List Char :=
  ": ".toList ++ severity.label.toList ++ ": ".toList

@[simp] theorem ofLabel?_label (severity : Severity) :
    ofLabel? severity.label = some severity := by
  cases severity <;> decide

end Severity

/-- What a compiler has to say about a translation unit. -/
structure Diagnostic where
  /-- The place, if it has one. -/
  location : Option Location
  severity : Severity
  message : String
  deriving DecidableEq, Repr

namespace Diagnostic

/-- The severity whose marker a text begins with, and the text after it. -/
def markerAt? (text : List Char) : Option (Severity × List Char) :=
  Severity.all.findSome? fun severity =>
    (dropStart? severity.marker text).map fun rest => (severity, rest)

/-- The first severity marker of a text, with the text before and after it. -/
def cutMarker : List Char → Option (List Char × Severity × List Char)
  | [] => none
  | character :: text =>
      match markerAt? (character :: text) with
      | some (severity, rest) => some ([], severity, rest)
      | none => (cutMarker text).map fun (before, found) => (character :: before, found)

/-- The text before and after the last occurrence of a separator. -/
def splitLast? (separator : Char) : List Char → Option (List Char × List Char)
  | [] => none
  | character :: text =>
      match splitLast? separator text with
      | some (front, last) => some (character :: front, last)
      | none => if character = separator then some ([], text) else none

/-- Read `FILE:LINE:COLUMN`, or else `FILE:LINE`, where colons in the name of the
file are kept.  With three fields the first must not be empty, and with two the
same holds of the name. -/
def readLocation? (text : List Char) : Option Location := do
  let (front, last) ← splitLast? ':' text
  match splitLast? ':' front with
  | some (file@(_ :: _), middle) =>
      match readUInt32? middle, readUInt32? last with
      | some line, some column => some ⟨String.ofList file, line, column⟩
      | none, some line => some ⟨String.ofList (file ++ ':' :: middle), line, 0⟩
      | _, none => none
  | some ([], middle) => nameAndLine? middle last
  | none => nameAndLine? front last
where
  /-- A location without a column, whose file has a name. -/
  nameAndLine? (name line : List Char) : Option Location := do
    let line ← readUInt32? line
    if name.isEmpty then none else some ⟨String.ofList name, line, 0⟩

/-- Read one line of a compiler's error stream.  What stands before the first
severity marker has to be a place; blanks at the end of the message are
dropped. -/
def parse? (line : List Char) : Option Diagnostic := do
  let (before, severity, rest) ← cutMarker line
  let location ← readLocation? before
  some ⟨some location, severity, String.ofList (trimEnd rest)⟩

/-- Leave out every note that follows another diagnostic. -/
def dropAttachedNotes : List Diagnostic → List Diagnostic
  | [] => []
  | first :: rest => first :: rest.filter (·.severity ≠ .note)

/-- The diagnostics of a compiler's error stream. -/
def list (text : List Char) : List Diagnostic :=
  dropAttachedNotes ((lines text).filterMap parse?)

@[simp] theorem dropAttachedNotes_eq_nil {diagnostics : List Diagnostic} :
    dropAttachedNotes diagnostics = [] ↔ diagnostics = [] := by
  cases diagnostics <;> simp [dropAttachedNotes]

end Diagnostic

end IncludeGate
