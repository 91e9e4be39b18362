import IncludeGate.IncludeGraph
import IncludeGate.Text.Utf8
import IncludeGate.TranslationUnit

/-!
# Columns of include directives

A preprocessor names the line of a directive but not its column.  The column is
that of the `#`, counted in octets from 1, and is looked up in the source of the
including file; where there is no such line, or the line is no directive, it is 1.

Many edges have the same includer, so the lines of every source are kept once they
have been read.
-/

namespace IncludeGate

open Text

/-- The lines of a source, if there is one. -/
abbrev SourceLines := Option (List (List Char))

namespace DirectiveColumn

/-- The column of the directive on a line that holds one. -/
def onLine? (line : List Char) : Option UInt32 :=
  if (trimStart line).head? = some '#' then
    some (UInt32.ofNat (Utf8.encode (line.takeWhile isBlank)).length + 1)
  else
    none

/-- The column of the directive on the line with a number, counted from 1. -/
def inSource (source : SourceLines) (line : UInt32) : UInt32 :=
  let text := match source, line.toNat with
    | some lines, number + 1 => lines[number]?
    | _, _ => none
  (text.bind onLine?).getD 1

/-- The lines of the source in which an includer's directives stand: those of the
unit itself, or else of a file. -/
def sourceOf (unit : SyntheticUnit) (readText : String → Option (List Char))
    (includer : String) : SourceLines :=
  if includer = unit.name then some (lines unit.source.toList)
  else (readText includer).map lines

/-- An edge with a column. -/
def withColumn (edge : IncludeEdge) (column : UInt32) : IncludeEdge :=
  { edge with location := { edge.location with column } }

/-- The lines of an includer's source, taken from those that are kept or else
looked up and kept. -/
def lookUp (source : String → SourceLines) (kept : List (String × SourceLines))
    (includer : String) : SourceLines × List (String × SourceLines) :=
  match kept.find? (·.1 = includer) with
  | some (_, lines) => (lines, kept)
  | none =>
      let lines := source includer
      (lines, (includer, lines) :: kept)

/-- Fill in the columns of edges, given the sources that are kept. -/
def fillFrom (source : String → SourceLines) :
    List (String × SourceLines) → List IncludeEdge → List IncludeEdge
  | _, [] => []
  | kept, edge :: rest =>
      let (lines, kept) := lookUp source kept edge.includer
      withColumn edge (inSource lines edge.location.line) :: fillFrom source kept rest

/-- Fill in the columns of the edges of a unit. -/
def fill (unit : SyntheticUnit) (readText : String → Option (List Char))
    (edges : List IncludeEdge) : List IncludeEdge :=
  fillFrom (sourceOf unit readText) [] edges

end DirectiveColumn

end IncludeGate
