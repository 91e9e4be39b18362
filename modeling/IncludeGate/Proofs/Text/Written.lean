import IncludeGate.Text.Numeral
import IncludeGate.Text.Pieces
import Mathlib.Algebra.Group.Nat.Defs

/-!
# Written texts read back

Numbers, pieces and lines that are written out are read as what they were: decimal
digits as their number, joined pieces as these pieces, and lines with a line feed
after each of them as these lines, except that a carriage return before a line feed
is not seen.
-/

namespace IncludeGate.Text

variable {α : Type}

/-! ## Runs of characters -/

/-- A run goes on up to the first character that is not of its class. -/
theorem span_append {accept : Char → Bool} {run rest : List Char}
    (accepted : ∀ character ∈ run, accept character = true)
    (stops : ∀ character ∈ rest.head?, accept character = false) :
    (run ++ rest).takeWhile accept = run ∧ (run ++ rest).dropWhile accept = rest := by
  rw [List.takeWhile_append_of_pos accepted, List.dropWhile_append_of_pos accepted]
  cases rest with
  | nil => exact ⟨List.append_nil run, rfl⟩
  | cons character rest =>
      have rejected := Bool.eq_false_iff.mp (stops character rfl)
      rw [List.takeWhile_cons_of_neg rejected, List.dropWhile_cons_of_neg rejected]
      exact ⟨List.append_nil run, rfl⟩

/-! ## Numerals -/

theorem isDigit_of_mem_toDigits {number : Nat} {digit : Char}
    (member : digit ∈ Nat.toDigits 10 number) : isDigit digit = true := by
  have decimal := Nat.isDigit_of_mem_toDigits (by decide) (by decide) member
  simp only [Char.isDigit, Bool.and_eq_true, decide_eq_true_eq] at decimal
  simp only [isDigit, Bool.and_eq_true, decide_eq_true_eq]
  exact decimal

/-- The digits of a number have that number as their value. -/
@[simp] theorem digitsValue_toDigits (number : Nat) :
    digitsValue (Nat.toDigits 10 number) = number := by
  have value : digitsValue (Nat.toDigits 10 number) =
      Nat.ofDigitChars 10 (Nat.toDigits 10 number) 0 := by
    simp only [digitsValue, Nat.ofDigitChars_eq_foldl, digitValue, Nat.mul_comm]
  rw [value, Nat.ofDigitChars_ten_toDigits]

/-- A decimal number below the limit is read as itself. -/
theorem readUnsigned?_toDigits {limit number : Nat} (below : number < limit) :
    readUnsigned? limit (Nat.toDigits 10 number) = some number := by
  have digits : (Nat.toDigits 10 number).all isDigit = true :=
    List.all_eq_true.mpr fun _ => isDigit_of_mem_toDigits
  have value := digitsValue_toDigits number
  unfold readUnsigned?
  cases written : Nat.toDigits 10 number with
  | nil => exact absurd written Nat.toDigits_ne_nil
  | cons first rest =>
      rw [written] at digits value
      have solid : first ≠ '+' := by
        rintro rfl
        simp [isDigit] at digits
      simp [solid, readDigits?, digits, value, below]

@[simp] theorem readUInt32?_toDigits (number : UInt32) :
    readUInt32? (Nat.toDigits 10 number.toNat) = some number := by
  simp [readUInt32?, readUnsigned?_toDigits number.toNat_lt]

@[simp] theorem readUInt8?_toDigits (number : UInt8) :
    readUInt8? (Nat.toDigits 10 number.toNat) = some number := by
  simp [readUInt8?, readUnsigned?_toDigits number.toNat_lt]

/-! ### Numerals of a fixed width -/

theorem isDigit_digitOf : ∀ value < 10, isDigit (digitOf value) = true := by
  decide

theorem digitValue_digitOf : ∀ value < 10, digitValue (digitOf value) = value := by
  decide

@[simp] theorem length_fixedDigits (width value : Nat) :
    (fixedDigits width value).length = width := by
  induction width generalizing value with
  | zero => rfl
  | succ width ih => simp [fixedDigits, ih]

theorem isDigit_of_mem_fixedDigits {width value : Nat} {digit : Char}
    (member : digit ∈ fixedDigits width value) : isDigit digit = true := by
  induction width generalizing value with
  | zero => contradiction
  | succ width ih =>
      rw [fixedDigits, List.mem_append, List.mem_singleton] at member
      rcases member with front | rfl
      · exact ih front
      · exact isDigit_digitOf _ (Nat.mod_lt value (by decide))

theorem digitsValue_append_singleton (digits : List Char) (last : Char) :
    digitsValue (digits ++ [last]) = digitsValue digits * 10 + digitValue last := by
  simp [digitsValue]

/-- Digits of a fixed number have the value they were written for, if it fits. -/
theorem digitsValue_fixedDigits {width value : Nat} (fits : value < 10 ^ width) :
    digitsValue (fixedDigits width value) = value := by
  induction width generalizing value with
  | zero =>
      rw [Nat.pow_zero, Nat.lt_one_iff] at fits
      rw [fits]
      rfl
  | succ width ih =>
      have front : value / 10 < 10 ^ width := by
        rw [Nat.pow_succ] at fits
        exact Nat.div_lt_of_lt_mul (Nat.mul_comm _ _ ▸ fits)
      rw [fixedDigits, digitsValue_append_singleton, ih front,
        digitValue_digitOf _ (Nat.mod_lt value (by decide)), Nat.div_add_mod']

/-! ## Pieces -/

theorem pieces_cons_separator {isSeparator : α → Bool} {separator : α}
    (separates : isSeparator separator = true) (rest : List α) :
    pieces isSeparator (separator :: rest) = [] :: pieces isSeparator rest := by
  rw [pieces, if_pos separates]

/-- Text without separators goes to the first piece of what follows it. -/
theorem pieces_append {isSeparator : α → Bool} {front rest first : List α}
    {others : List (List α)} (solid : ∀ character ∈ front, isSeparator character = false)
    (cut : pieces isSeparator rest = first :: others) :
    pieces isSeparator (front ++ rest) = (front ++ first) :: others := by
  induction front with
  | nil => exact cut
  | cons character front ih =>
      have tail := ih fun other member => solid other (List.mem_cons_of_mem _ member)
      have here := solid character List.mem_cons_self
      rw [List.cons_append, pieces, if_neg (Bool.eq_false_iff.mp here), tail, extendFirst,
        List.cons_append]

/-- Pieces never reach over a separator. -/
theorem pieces_append_separator {isSeparator : α → Bool} {separator : α}
    (separates : isSeparator separator = true) (front back : List α) :
    pieces isSeparator (front ++ separator :: back) =
      pieces isSeparator front ++ pieces isSeparator back := by
  induction front with
  | nil => exact pieces_cons_separator separates back
  | cons character front ih =>
      rw [List.cons_append, pieces, pieces, ih]
      split
      · rfl
      · cases cut : pieces isSeparator front with
        | nil => exact absurd cut (pieces_ne_nil _ _)
        | cons first others => rfl

theorem not_separator_of_mem_pieces {isSeparator : α → Bool} {text piece : List α}
    (member : piece ∈ pieces isSeparator text) {character : α} (inside : character ∈ piece) :
    isSeparator character = false := by
  induction text generalizing piece with
  | nil =>
      rw [pieces, List.mem_singleton] at member
      subst member
      contradiction
  | cons first text ih =>
      rw [pieces] at member
      split at member
      · rcases List.mem_cons.mp member with rfl | member
        · contradiction
        · exact ih member inside
      · rename_i noSeparator
        cases cut : pieces isSeparator text with
        | nil => exact absurd cut (pieces_ne_nil _ _)
        | cons front others =>
            rw [cut] at member ih
            rcases List.mem_cons.mp member with rfl | member
            · rcases List.mem_cons.mp inside with rfl | inside
              · exact Bool.eq_false_iff.mpr noSeparator
              · exact ih List.mem_cons_self inside
            · exact ih (List.mem_cons_of_mem _ member) inside

/-- Pieces without separators in them are found again after joining. -/
theorem pieces_join [BEq α] [LawfulBEq α] {separator : α} {written : List (List α)}
    (nonempty : written ≠ []) (solid : ∀ piece ∈ written, separator ∉ piece) :
    pieces (· == separator) (join separator written) = written := by
  have differs : ∀ piece ∈ written, ∀ character ∈ piece, (character == separator) = false := by
    intro piece member character inside
    exact beq_eq_false_iff_ne.mpr fun same => solid piece member (same ▸ inside)
  induction written with
  | nil => contradiction
  | cons first written ih =>
      have ⟨here, others⟩ := List.forall_mem_cons.mp differs
      cases written with
      | nil =>
          have last := pieces_append here (rfl : pieces (· == separator) [] = [[]])
          rwa [List.append_nil] at last
      | cons second written =>
          have rest := ih (List.cons_ne_nil _ _) (List.forall_mem_cons.mp solid).2 others
          have cut : pieces (· == separator) (separator :: join separator (second :: written)) =
              [] :: second :: written := by
            rw [pieces, if_pos (beq_self_eq_true separator), rest]
          rw [join, pieces_append here cut, List.append_nil]

theorem join_concat {separator : α} {written : List (List α)} (nonempty : written ≠ [])
    (last : List α) :
    join separator (written ++ [last]) = join separator written ++ separator :: last := by
  induction written with
  | nil => contradiction
  | cons first written ih =>
      cases written with
      | nil => rfl
      | cons second written =>
          rw [List.cons_append, List.cons_append, join, ← List.cons_append,
            ih (List.cons_ne_nil _ _), join, List.append_assoc, List.cons_append]

/-- What is joined consists of separators and of what is in the pieces. -/
theorem mem_join_iff {separator character : α} (other : character ≠ separator)
    {written : List (List α)} :
    character ∈ join separator written ↔ ∃ piece ∈ written, character ∈ piece := by
  induction written with
  | nil => simp [join]
  | cons first written ih =>
      cases written with
      | nil => simp [join]
      | cons second written => simp [join, ih, other]

/-- A separator stands before the last piece, unless it is the only one. -/
theorem exists_join_concat (separator : α) (written : List (List α)) (last : List α) :
    ∃ front, join separator (written ++ [last]) = front ++ last ∧
      (written = [] ∧ front = [] ∨ front = join separator written ++ [separator]) := by
  by_cases empty : written = []
  · subst empty
    exact ⟨[], rfl, .inl ⟨rfl, rfl⟩⟩
  · refine ⟨join separator written ++ [separator], ?_, .inr rfl⟩
    rw [join_concat empty, List.append_assoc, List.singleton_append]

/-- The last character is one of the last piece. -/
theorem getLast?_cons_join_concat_ne {separator : α} (written : List (List α)) {last : List α}
    (filled : last ≠ []) (solid : separator ∉ last) :
    (separator :: join separator (written ++ [last])).getLast? ≠ some separator := by
  obtain ⟨front, joined, -⟩ := exists_join_concat separator written last
  rw [joined, ← List.cons_append, List.getLast?_append]
  cases ending : last.getLast? with
  | none => exact absurd (List.getLast?_eq_none_iff.mp ending) filled
  | some character =>
      rw [Option.some_or]
      exact fun same => solid (List.mem_of_getLast? (ending.trans same))

/-- A blank at the end changes no words. -/
theorem words_concat_blank {blank : Char} (isBlank : isBlank blank = true)
    (text : List Char) : words (text ++ [blank]) = words text := by
  rw [words, pieces_append_separator isBlank, List.filter_append]
  exact List.append_nil _

/-! ## Lines -/

/-- The text with the given lines, each ended by a line feed. -/
def unlines (written : List (List Char)) : List Char :=
  written.flatMap (· ++ ['\n'])

/-- Lines that stand between two others. -/
theorem join_cons_concat_nil (first : List Char) (written : List (List Char)) :
    join '\n' (first :: (written ++ [[]])) = first ++ '\n' :: unlines written := by
  induction written generalizing first with
  | nil => rfl
  | cons second written ih =>
      rw [List.cons_append, join, ih, unlines, unlines, List.flatMap_cons]
      simp only [List.append_assoc, List.cons_append, List.nil_append]

/-- A line that is ended by a line feed is read first. -/
theorem lines_cons {line : List Char} (oneLine : '\n' ∉ line) (rest : List Char) :
    lines (line ++ '\n' :: rest) = dropReturn line :: lines rest := by
  have solid : ∀ character ∈ line, (character == '\n') = false := by
    intro character member
    exact beq_eq_false_iff_ne.mpr fun equal => oneLine (equal ▸ member)
  have feed : pieces (· == '\n') ('\n' :: rest) = [] :: pieces (· == '\n') rest :=
    pieces_cons_separator (by decide) rest
  have cut := pieces_append solid feed
  rw [lines, cut, List.append_nil]
  cases others : pieces (· == '\n') rest with
  | nil => exact absurd others (pieces_ne_nil _ _)
  | cons next others => rw [linesOfPieces, lines, others]

/-- A text without a line feed is a line. -/
theorem lines_of_oneLine {line : List Char} (oneLine : '\n' ∉ line) (filled : line ≠ []) :
    lines line = [line] := by
  have whole : pieces (· == '\n') line = [line] :=
    pieces_join (List.cons_ne_nil line []) (List.forall_mem_singleton.mpr oneLine)
  rw [lines, whole, linesOfPieces, if_neg (by simp [filled])]

/-- The lines of a text are those it was written with, without the carriage
returns at their ends. -/
theorem lines_unlines {written : List (List Char)}
    (oneLine : ∀ line ∈ written, '\n' ∉ line) :
    lines (unlines written) = written.map dropReturn := by
  induction written with
  | nil => rfl
  | cons line written ih =>
      have others := ih fun other member => oneLine other (List.mem_cons_of_mem _ member)
      have front : unlines (line :: written) = line ++ '\n' :: unlines written := by
        simp [unlines]
      rw [front, lines_cons (oneLine line List.mem_cons_self), others, List.map_cons]

theorem linesOfPieces_append (front : List (List Char)) {back : List (List Char)}
    (nonempty : back ≠ []) :
    linesOfPieces (front ++ back) = front.map dropReturn ++ linesOfPieces back := by
  induction front with
  | nil => rfl
  | cons line front ih =>
      rw [List.map_cons, List.cons_append, List.cons_append, ← ih]
      cases rest : front ++ back with
      | nil => exact absurd (List.append_eq_nil_iff.mp rest).2 nonempty
      | cons next others => rfl

/-- Where neither the ends of lines nor an empty line count, lines are read as pieces are. -/
theorem filterMap_linesOfPieces {β : Type} {read : List Char → Option β} (empty : read [] = none)
    (ends : ∀ line, read (dropReturn line) = read line) (pieces : List (List Char)) :
    (linesOfPieces pieces).filterMap read = pieces.filterMap read := by
  fun_induction linesOfPieces pieces with
  | case1 => rfl
  | case2 last blank =>
      rw [List.isEmpty_iff.mp blank, List.filterMap_cons_none empty]
  | case3 => rfl
  | case4 line next rest ih => rw [List.filterMap_cons, List.filterMap_cons, ends, ih]

/-- A text in two parts has the lines of both if the first part ends with a line. -/
theorem lines_append {front : List Char} (ended : front = [] ∨ front.getLast? = some '\n')
    (back : List Char) : lines (front ++ back) = lines front ++ lines back := by
  rcases ended with rfl | feed
  · rfl
  · obtain ⟨front, rfl⟩ := List.getLast?_eq_some_iff.mp feed
    have split (rest : List Char) :
        lines (front ++ '\n' :: rest) =
          (pieces (· == '\n') front).map dropReturn ++ lines rest := by
      rw [lines, pieces_append_separator (by decide), linesOfPieces_append _ (pieces_ne_nil _ _),
        lines]
    rw [List.append_assoc, List.singleton_append, split, split, lines_nil, List.append_nil]

end IncludeGate.Text
