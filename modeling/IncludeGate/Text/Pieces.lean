import IncludeGate.Text.Blank

/-!
# Pieces, words and lines

`pieces` cuts a text at every character of a class and keeps the empty pieces,
so that joining the pieces again gives the text.  Words and lines are two
readings of it: words are the pieces between blanks that are not empty, lines
are the pieces between line feeds, where a line feed ends a line and does not
begin another one.
-/

namespace IncludeGate.Text

variable {α : Type}

/-- Put a character in front of the first piece. -/
def extendFirst (character : α) : List (List α) → List (List α)
  | [] => [[character]]
  | first :: rest => (character :: first) :: rest

/-- Cut a text at every separator.  There is always one piece more than there
are separators. -/
def pieces (isSeparator : α → Bool) : List α → List (List α)
  | [] => [[]]
  | character :: rest =>
      if isSeparator character then
        [] :: pieces isSeparator rest
      else
        extendFirst character (pieces isSeparator rest)

/-- Write a separator between each two of the given pieces. -/
def join (separator : α) : List (List α) → List α
  | [] => []
  | [last] => last
  | first :: second :: rest => first ++ separator :: join separator (second :: rest)

@[simp] theorem pieces_ne_nil (isSeparator : α → Bool) (text : List α) :
    pieces isSeparator text ≠ [] := by
  induction text with
  | nil => simp [pieces]
  | cons character rest ih =>
      unfold pieces
      split
      · simp
      · cases cut : pieces isSeparator rest with
        | nil => exact absurd cut ih
        | cons first others => simp [extendFirst]

/-- Cutting at a character and joining with it again changes nothing. -/
theorem join_pieces [BEq α] [LawfulBEq α] (separator : α) (text : List α) :
    join separator (pieces (· == separator) text) = text := by
  induction text with
  | nil => rfl
  | cons character rest ih =>
      unfold pieces
      have nonempty := pieces_ne_nil (· == separator) rest
      cases cut : pieces (· == separator) rest with
      | nil => exact absurd cut nonempty
      | cons first others =>
          rw [cut] at ih
          split
          · rename_i same
            simp only [beq_iff_eq] at same
            simp [join, ih, same]
          · cases others with
            | nil => simpa [extendFirst, join] using ih
            | cons second tail => simpa [extendFirst, join] using ih

/-- The pieces between blanks that are not empty. -/
def words (text : List Char) : List (List Char) :=
  (pieces isBlank text).filter fun word => !word.isEmpty

/-- A line without the carriage return that stands directly before its line
feed. -/
def dropReturn (line : List Char) : List Char :=
  if line.getLast? = some '\r' then line.dropLast else line

/-- Read the pieces between line feeds as lines.  The piece after the last line
feed is a line of its own unless it is empty, and keeps a carriage return at
its end, because no line feed follows that one. -/
def linesOfPieces : List (List Char) → List (List Char)
  | [] => []
  | [last] => if last.isEmpty then [] else [last]
  | line :: next :: rest => dropReturn line :: linesOfPieces (next :: rest)

/-- The lines of a text. -/
def lines (text : List Char) : List (List Char) :=
  linesOfPieces (pieces (· == '\n') text)

@[simp] theorem lines_nil : lines [] = [] := rfl

end IncludeGate.Text
