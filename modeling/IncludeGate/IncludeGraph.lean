import IncludeGate.Linemarker
import IncludeGate.Location

/-!
# The include graph of a preprocessed unit

Line markers open and close files like brackets.  Reading keeps a stack of open
files, each with the number of the line that comes next in it; entering a file
gives one edge, from the file that is open at that moment and the line that it
has reached.  A line of text moves the innermost file one line on, and a marker
that neither enters nor returns renames it.

Names such as `<built-in>` stand for no file.  Files entered from one of them,
such as headers that a compiler includes on its own account, give no edge, and
neither does entering one; the name of the unit itself is exempt, although it
may have the same form.
-/

namespace IncludeGate

open Text

/-- One file included by another. -/
structure IncludeEdge where
  /-- The included file, as the preprocessor spells it. -/
  included : String
  /-- The file with the directive. -/
  includer : String
  /-- The place of the directive in that file. -/
  location : Location
  deriving DecidableEq, Repr

namespace IncludeGraph

/-- An open file and the number of its next line. -/
structure Frame where
  file : String
  nextLine : UInt32
  deriving DecidableEq, Repr

/-- Whether a name stands for no file: it begins with `<` and ends with `>`. -/
def isPseudoFile (name : String) : Bool :=
  name.toList.head? == some '<' && name.toList.getLast? == some '>'

/-- The number of the next line.  The last number is followed by itself. -/
def lineAfter (line : UInt32) : UInt32 :=
  if line.toNat + 1 < UInt32.size then line + 1 else line

/-- The file that is being read: the innermost open one, or else the first line
of the unit. -/
def current (unit : String) : List Frame → Frame
  | [] => ⟨unit, 1⟩
  | top :: _ => top

/-- The edge that a line of preprocessed text gives.  A line that is no marker
gives none. -/
def edge? (unit : String) (frames : List Frame) : Option Linemarker → Option IncludeEdge
  | none => none
  | some marker =>
      let includer := current unit frames
      if marker.entersFile && (includer.file == unit || !isPseudoFile includer.file) &&
          !isPseudoFile marker.file then
        some ⟨marker.file, includer.file, ⟨includer.file, includer.nextLine, 0⟩⟩
      else
        none

/-- The open files after a line of preprocessed text, the innermost one first.  A
return closes a file only if another one is open below it. -/
def advance : List Frame → Option Linemarker → List Frame
  | [], none => []
  | top :: below, none => { top with nextLine := lineAfter top.nextLine } :: below
  | frames, some marker =>
      let here : Frame := ⟨marker.file, marker.line⟩
      if marker.entersFile then
        here :: frames
      else
        match frames with
        | _ :: _ :: below =>
            if marker.returnsToFile then here :: below else here :: frames.tail
        | _ => [here]

/-- The edges of a sequence of lines, given the files that are open before it. -/
def edgesFrom (unit : String) : List Frame → List (Option Linemarker) → List IncludeEdge
  | _, [] => []
  | frames, line :: rest =>
      (edge? unit frames line).toList ++ edgesFrom unit (advance frames line) rest

/-- The open files after a sequence of lines. -/
def framesAfter (frames : List Frame) (lines : List (Option Linemarker)) : List Frame :=
  lines.foldl advance frames

/-- The include edges of preprocessed text, in the order in which files are
entered, without columns. -/
def edges (unit : String) (text : List Char) : List IncludeEdge :=
  edgesFrom unit [] ((lines text).map Linemarker.parse?)

@[simp] theorem framesAfter_nil (frames : List Frame) : framesAfter frames [] = frames := rfl

@[simp] theorem framesAfter_cons (frames : List Frame) (line : Option Linemarker)
    (rest : List (Option Linemarker)) :
    framesAfter frames (line :: rest) = framesAfter (advance frames line) rest := rfl

/-- Edges of a sequence of lines are those of its first part and then those of
the second, read with the files that the first part leaves open. -/
theorem edgesFrom_append (unit : String) (frames : List Frame)
    (first second : List (Option Linemarker)) :
    edgesFrom unit frames (first ++ second) =
      edgesFrom unit frames first ++ edgesFrom unit (framesAfter frames first) second := by
  induction first generalizing frames with
  | nil => rfl
  | cons line rest ih => simp [edgesFrom, ih]

end IncludeGraph

end IncludeGate
