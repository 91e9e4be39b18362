import IncludeGate.Text.Pieces
import IncludeGate.Text.Search

/-!
# The search list of a compiler

Asked for details, a compiler prints the directories in which it looks for
`#include <...>`, one a line, between two fixed delimiters.  Directories that
are marked as frameworks are of no use as include directories and are left out.
-/

namespace IncludeGate

open Text

namespace SearchList

/-- The line before the first directory. -/
def opening : List Char := "#include <...> search starts here:".toList

/-- The beginning of the line after the last directory. -/
def closing : List Char := "End of search list".toList

/-- What marks a framework directory. -/
def frameworkMark : List Char := "(framework directory)".toList

/-- The directories of a listing, or nothing where one of the delimiters is
missing or they stand in the wrong order. -/
def directories? (text : List Char) : Option (List String) := do
  let (_, afterOpening) ← cut opening text
  let (listing, _) ← cut closing afterOpening
  let entries := (lines listing).map trim
  some ((entries.filter fun entry => !entry.isEmpty && !occursIn frameworkMark entry).map
    String.ofList)

/-- The compiler arguments that name the directories. -/
def flags (directories : List String) : List String :=
  directories.flatMap fun directory => ["-isystem", directory]

end SearchList

end IncludeGate
