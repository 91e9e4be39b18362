import IncludeGate.Diagnostic
import IncludeGate.Proofs.Text.Words

/-!
# Diagnostic lines read back

A diagnostic line has a place, a severity and a message, and all of them are found again:
whatever stands in the message, and although the name of a file may have colons and blanks
in it.

Two facts about colons carry this.  In the marker of a severity a blank comes after every
colon, but in a place a digit comes after those before the numbers; so a marker that begins
in the name of a file ends there, and none begins among the numbers.  And the numbers have no
colon in them, so the last two colons of a place are those before its numbers.
-/

namespace IncludeGate

open Text

namespace Severity

theorem getElem?_marker_of_colon (severity : Severity) :
    ∀ index < severity.marker.length, severity.marker[index]? = some ':' →
      severity.marker[index + 1]? = some ' ' := by
  cases severity <;> decide

/-- A marker begins with a colon and a blank. -/
theorem exists_eq_of_marker_prefix {severity : Severity} {text : List Char}
    (begins : severity.marker <+: text) : ∃ rest, text = ':' :: ' ' :: rest := by
  obtain ⟨rest, rfl⟩ := begins
  cases severity <;> exact ⟨_, rfl⟩

/-- A marker does not reach over a colon without a blank after it. -/
theorem marker_prefix_of_colon {severity : Severity} {text rest : List Char} {next : Char}
    (solid : next ≠ ' ') (begins : severity.marker <+: text ++ ':' :: next :: rest) :
    severity.marker <+: text := by
  by_cases short : severity.marker.length ≤ text.length
  · exact List.prefix_of_prefix_length_le begins (List.prefix_append _ _) short
  · exfalso
    have inside : text.length < severity.marker.length := Nat.lt_of_not_le short
    obtain ⟨after, equal⟩ := begins
    have colon : severity.marker[text.length]? = some ':' := by
      rw [← List.getElem?_append_left inside, equal]
      simp
    have blank := severity.getElem?_marker_of_colon _ inside colon
    have further : text.length + 1 < severity.marker.length :=
      (List.getElem?_eq_some_iff.mp blank).1
    rw [← List.getElem?_append_left further, equal] at blank
    exact solid (by simpa using blank)

end Severity

namespace Diagnostic

/-! ## The first marker -/

theorem markerAt?_eq_none {text : List Char}
    (unmarked : ∀ severity : Severity, ¬ severity.marker <+: text) : markerAt? text = none := by
  rw [markerAt?, List.findSome?_eq_none_iff]
  intro severity _
  cases found : dropStart? severity.marker text with
  | none => rfl
  | some rest => exact absurd ⟨rest, (dropStart?_eq_some_iff.mp found).symm⟩ (unmarked severity)

theorem markerAt?_marker_append (severity : Severity) (rest : List Char) :
    markerAt? (severity.marker ++ rest) = some (severity, rest) := by
  cases severity <;> rfl

/-- Where no marker begins in a text, the first one is that of what follows. -/
theorem cutMarker_append {front rest : List Char}
    (unmarked : ∀ back, back <:+ front → back ≠ [] →
      ∀ severity : Severity, ¬ severity.marker <+: back ++ rest) :
    cutMarker (front ++ rest) =
      (cutMarker rest).map fun (before, found) => (front ++ before, found) := by
  induction front with
  | nil => simp
  | cons character front ih =>
      have here := markerAt?_eq_none
        (unmarked (character :: front) (List.suffix_refl _) (List.cons_ne_nil _ _))
      have later := ih fun back suffix => unmarked back (suffix.trans (List.suffix_cons _ _))
      rw [List.cons_append] at here ⊢
      simp only [cutMarker, here, later, Option.map_map]
      rfl

theorem cutMarker_marker_append (severity : Severity) (rest : List Char) :
    cutMarker (severity.marker ++ rest) = some ([], severity, rest) := by
  have here := markerAt?_marker_append severity rest
  obtain ⟨after, equal⟩ :=
    Severity.exists_eq_of_marker_prefix (List.prefix_append severity.marker rest)
  rw [equal] at here ⊢
  simp only [cutMarker, here]

/-! ## Places -/

/-- The decimal digits of a number with a colon in front. -/
def coordinate (number : UInt32) : List Char :=
  ':' :: Nat.toDigits 10 number.toNat

/-- A file and the numbers after it. -/
def place (file : List Char) (numbers : List UInt32) : List Char :=
  file ++ numbers.flatMap coordinate

/-- A line of a compiler's error stream. -/
def written (place : List Char) (severity : Severity) (message : List Char) : List Char :=
  place ++ severity.marker ++ message

/-- The name of a file in a diagnostic line.  No marker stands in it. -/
structure IsFileName (file : List Char) : Prop where
  nonempty : file ≠ []
  unmarked : ∀ severity : Severity, ¬ severity.marker <:+: file
  oneLine : '\n' ∉ file

/-- A file whose name cannot be taken for a shorter name and a number. -/
structure HasNoLine (file : List Char) : Prop where
  noColon : file.head? ≠ some ':'
  noNumber : ∀ front last, file = front ++ ':' :: last → ':' ∉ last →
    ¬ ∃ number : UInt32, Numeral last number.toNat

variable {file message : List Char}

theorem exists_coordinate_eq (number : UInt32) :
    ∃ digit rest, coordinate number = ':' :: digit :: rest ∧ isDigit digit = true := by
  cases digits : Nat.toDigits 10 number.toNat with
  | nil => exact absurd digits Nat.toDigits_ne_nil
  | cons digit rest =>
      have member : digit ∈ Nat.toDigits 10 number.toNat := digits ▸ List.mem_cons_self
      exact ⟨digit, rest, congrArg _ digits, isDigit_of_mem_toDigits member⟩

theorem colon_not_mem_digits (number : UInt32) : ':' ∉ Nat.toDigits 10 number.toNat :=
  fun member => absurd (isDigit_of_mem_toDigits member) (by decide)

/-- The first marker after numbers is the one that follows them. -/
theorem cutMarker_coordinates (numbers : List UInt32) (severity : Severity) (message : List Char) :
    cutMarker (numbers.flatMap coordinate ++ (severity.marker ++ message)) =
      some (numbers.flatMap coordinate, severity, message) := by
  induction numbers with
  | nil => exact cutMarker_marker_append severity message
  | cons number numbers ih =>
      rw [List.flatMap_cons, List.append_assoc, cutMarker_append, ih]
      · rfl
      · intro back suffix filled severity begins
        obtain ⟨after, equal⟩ := Severity.exists_eq_of_marker_prefix begins
        rcases List.suffix_cons_iff.mp suffix with rfl | inDigits
        · -- A digit comes after the colon.
          obtain ⟨digit, rest, spelled, decimal⟩ := exists_coordinate_eq number
          have start : ':' :: Nat.toDigits 10 number.toNat = ':' :: digit :: rest := spelled
          rw [start] at equal
          cases equal
          contradiction
        · -- There are only digits.
          obtain ⟨first, rest, rfl⟩ := List.exists_cons_of_ne_nil filled
          obtain ⟨rfl, -⟩ := List.cons.inj equal
          exact colon_not_mem_digits number (inDigits.subset List.mem_cons_self)

/-- The first marker of a diagnostic line is the one after its place. -/
theorem cutMarker_written (isName : IsFileName file) (number : UInt32) (numbers : List UInt32)
    (severity : Severity) (message : List Char) :
    cutMarker (written (place file (number :: numbers)) severity message) =
      some (place file (number :: numbers), severity, message) := by
  have coordinates := cutMarker_coordinates (number :: numbers) severity message
  obtain ⟨digit, rest, spelled, decimal⟩ := exists_coordinate_eq number
  have solid : digit ≠ ' ' := by
    rintro rfl
    contradiction
  rw [written, place, List.append_assoc, List.append_assoc, cutMarker_append, coordinates]
  · rfl
  · intro back suffix _ other begins
    rw [List.flatMap_cons, spelled] at begins
    exact isName.unmarked other
      ((Severity.marker_prefix_of_colon solid begins).isInfix.trans suffix.isInfix)

/-! ## Locations -/

theorem splitLast?_eq_none_iff {separator : Char} {text : List Char} :
    splitLast? separator text = none ↔ separator ∉ text := by
  induction text with
  | nil => simp [splitLast?]
  | cons character text ih =>
      rw [splitLast?]
      cases split : splitLast? separator text with
      | some found => simp [← ih, split]
      | none => simp [ih.mp split, eq_comm]

/-- A text is split at its last separator. -/
theorem splitLast?_append {separator : Char} {last : List Char} (noOther : separator ∉ last)
    (front : List Char) :
    splitLast? separator (front ++ separator :: last) = some (front, last) := by
  induction front with
  | nil =>
      rw [List.nil_append, splitLast?, splitLast?_eq_none_iff.mpr noOther]
      exact if_pos rfl
  | cons character front ih => rw [List.cons_append, splitLast?, ih]

theorem eq_append_of_splitLast? {separator : Char} {text front last : List Char}
    (split : splitLast? separator text = some (front, last)) :
    text = front ++ separator :: last ∧ separator ∉ last := by
  induction text generalizing front with
  | nil => contradiction
  | cons character text ih =>
      rw [splitLast?] at split
      cases later : splitLast? separator text with
      | some found =>
          obtain ⟨before, after⟩ := found
          simp only [later, Option.some.injEq, Prod.mk.injEq] at split
          obtain ⟨rfl, rfl⟩ := split
          obtain ⟨equal, noOther⟩ := ih later
          exact ⟨congrArg _ equal, noOther⟩
      | none =>
          simp only [later, Option.ite_none_right_eq_some, Option.some.injEq,
            Prod.mk.injEq] at split
          obtain ⟨rfl, rfl, rfl⟩ := split
          exact ⟨rfl, splitLast?_eq_none_iff.mp later⟩

@[simp] theorem place_nil (file : List Char) : place file [] = file :=
  List.append_nil file

/-- The last colon of a place is the one before its last number. -/
theorem splitLast?_place (file : List Char) (numbers : List UInt32) (number : UInt32) :
    splitLast? ':' (place file (numbers ++ [number])) =
      some (place file numbers, Nat.toDigits 10 number.toNat) := by
  rw [← splitLast?_append (colon_not_mem_digits number)]
  simp [place, coordinate]

theorem splitLast?_place_line (file : List Char) (line : UInt32) :
    splitLast? ':' (place file [line]) = some (file, Nat.toDigits 10 line.toNat) := by
  have split := splitLast?_place file [] line
  rwa [List.nil_append, place_nil] at split

theorem readLocation?_line_column (nonempty : file ≠ []) (line column : UInt32) :
    readLocation? (place file [line, column]) = some ⟨String.ofList file, line, column⟩ := by
  have outer : splitLast? ':' (place file [line, column]) =
      some (place file [line], Nat.toDigits 10 column.toNat) := splitLast?_place file [line] column
  have inner := splitLast?_place_line file line
  obtain ⟨first, rest, rfl⟩ := List.exists_cons_of_ne_nil nonempty
  simp only [readLocation?, outer, inner, readUInt32?_toDigits, Option.bind_eq_bind,
    Option.bind_some]

theorem readLocation?_line (nonempty : file ≠ []) (hasNoLine : HasNoLine file) (line : UInt32) :
    readLocation? (place file [line]) = some ⟨String.ofList file, line, 0⟩ := by
  have outer := splitLast?_place_line file line
  cases inner : splitLast? ':' file with
  | none =>
      simp [readLocation?, outer, inner, readLocation?.nameAndLine?, nonempty]
  | some found =>
      obtain ⟨front, last⟩ := found
      obtain ⟨equal, noOther⟩ := eq_append_of_splitLast? inner
      have noNumber : readUInt32? last = none := by
        cases read : readUInt32? last with
        | none => rfl
        | some number =>
            exact absurd ⟨number, readUInt32?_eq_some_iff.mp read⟩
              (hasNoLine.noNumber front last equal noOther)
      cases front with
      | nil => exact absurd (congrArg List.head? equal) hasNoLine.noColon
      | cons first front =>
          subst equal
          simp only [readLocation?, outer, inner, noNumber, readUInt32?_toDigits,
            Option.bind_eq_bind, Option.bind_some]

/-! ## Ends of lines -/

theorem markerAt?_concat_return (text : List Char) :
    markerAt? (text ++ ['\r']) =
      (markerAt? text).map fun (severity, rest) => (severity, rest ++ ['\r']) := by
  have noReturn (severity : Severity) : '\r' ∉ severity.marker := by
    cases severity <;> decide
  simp only [markerAt?, List.map_findSome?, dropStart?_concat (noReturn _), Option.map_map,
    Function.comp_def]

theorem cutMarker_concat_return (text : List Char) :
    cutMarker (text ++ ['\r']) =
      (cutMarker text).map fun (before, severity, rest) => (before, severity, rest ++ ['\r']) := by
  induction text with
  | nil => decide
  | cons character text ih =>
      have here := markerAt?_concat_return (character :: text)
      rw [List.cons_append] at here ⊢
      rw [cutMarker, cutMarker, here, ih]
      cases markerAt? (character :: text) with
      | some found => rfl
      | none => cases cutMarker text <;> rfl

/-- A carriage return at the end of a line is a blank at the end of its message, or else the
line is no diagnostic with it nor without it. -/
theorem parse?_concat_return (line : List Char) : parse? (line ++ ['\r']) = parse? line := by
  have blank (rest : List Char) : trimEnd (rest ++ ['\r']) = trimEnd rest :=
    trimEnd_concat_blank (by decide) rest
  rw [parse?, parse?, cutMarker_concat_return]
  cases cutMarker line with
  | none => rfl
  | some found => simp [blank]

@[simp] theorem parse?_dropReturn (line : List Char) : parse? (dropReturn line) = parse? line := by
  unfold dropReturn
  split
  · rename_i ends
    obtain ⟨front, rfl⟩ := List.getLast?_eq_some_iff.mp ends
    rw [List.dropLast_concat, parse?_concat_return]
  · rfl

/-! ## Lines -/

/-- A line is read as a diagnostic, on its own and as the whole of an error stream, however
the line ends. -/
def IsReadAs (line : List Char) (diagnostic : Diagnostic) : Prop :=
  parse? line = some diagnostic ∧
    ∀ ending ∈ [[], ['\n'], ['\r', '\n']], list (line ++ ending) = [diagnostic]

theorem isReadAs_of_parse? {line : List Char} {diagnostic : Diagnostic} (oneLine : '\n' ∉ line)
    (parsed : parse? line = some diagnostic) : IsReadAs line diagnostic := by
  have alone (stream : List Char) (other : List Char) (one : lines stream = [other])
      (same : parse? other = some diagnostic) : list stream = [diagnostic] := by
    rw [list, one, List.filterMap_cons_some same]
    rfl
  have filled : line ≠ [] := by
    rintro rfl
    contradiction
  refine ⟨parsed, fun ending member => ?_⟩
  simp only [List.mem_cons, List.not_mem_nil, or_false] at member
  rcases member with rfl | rfl | rfl
  · apply alone _ line _ parsed
    rw [List.append_nil, lines_of_oneLine oneLine filled]
  · apply alone _ (dropReturn line) _ ((parse?_dropReturn line).trans parsed)
    rw [lines_cons oneLine, lines_nil]
  · have oneLonger : '\n' ∉ line ++ ['\r'] := by simp [oneLine]
    apply alone _ (dropReturn (line ++ ['\r']))
    · rw [← lines_nil, ← lines_cons oneLonger, List.append_assoc]
      rfl
    · rw [parse?_dropReturn, parse?_concat_return, parsed]

theorem newline_not_mem_written {numbers : List UInt32} {severity : Severity}
    (inName : '\n' ∉ file) (inMessage : '\n' ∉ message) :
    '\n' ∉ written (place file numbers) severity message := by
  have inMarker : '\n' ∉ severity.marker := by
    cases severity <;> decide
  have inNumbers : '\n' ∉ numbers.flatMap coordinate := by
    intro member
    obtain ⟨number, -, inCoordinate⟩ := List.mem_flatMap.mp member
    rcases List.mem_cons.mp inCoordinate with equal | inDigits
    · contradiction
    · exact absurd (isDigit_of_mem_toDigits inDigits) (by decide)
  simp [written, place, inName, inNumbers, inMarker, inMessage]

/-- A diagnostic line is read as its place is. -/
theorem isReadAs_written_of_readLocation? {number : UInt32} {numbers : List UInt32}
    {severity : Severity} {location : Location} (isName : IsFileName file)
    (oneLine : '\n' ∉ message)
    (read : readLocation? (place file (number :: numbers)) = some location) :
    IsReadAs (written (place file (number :: numbers)) severity message)
      ⟨some location, severity, String.ofList (trimEnd message)⟩ := by
  apply isReadAs_of_parse? (newline_not_mem_written isName.oneLine oneLine)
  rw [parse?, cutMarker_written isName]
  simp only [Option.bind_eq_bind, Option.bind_some, read]

/-- A diagnostic line gives back its file, its numbers, its severity and its message, without
the blanks at the end of that.  A name that ends with a number after a colon can only be told
from a place with a line if a column follows. -/
theorem isReadAs_written (isName : IsFileName file) (oneLine : '\n' ∉ message)
    (line column : UInt32) (severity : Severity) :
    IsReadAs (written (place file [line, column]) severity message)
        ⟨some ⟨String.ofList file, line, column⟩, severity, String.ofList (trimEnd message)⟩ ∧
      (HasNoLine file →
        IsReadAs (written (place file [line]) severity message)
          ⟨some ⟨String.ofList file, line, 0⟩, severity, String.ofList (trimEnd message)⟩) := by
  constructor
  · exact isReadAs_written_of_readLocation? isName oneLine
      (readLocation?_line_column isName.nonempty line column)
  · intro hasNoLine
    exact isReadAs_written_of_readLocation? isName oneLine
      (readLocation?_line isName.nonempty hasNoLine line)

/-- A path with a drive, and a message in which the marker of a severity stands. -/
theorem isReadAs_drivePath :
    IsFileName "C:\\src\\a.h".toList ∧ HasNoLine "C:\\src\\a.h".toList ∧
      IsReadAs "C:\\src\\a.h:4:7: error: saw ': note: ' here ".toList
        ⟨some ⟨"C:\\src\\a.h", 4, 7⟩, .error, "saw ': note: ' here"⟩ ∧
      IsReadAs "C:\\src\\a.h:4: error: saw ': note: ' here ".toList
        ⟨some ⟨"C:\\src\\a.h", 4, 0⟩, .error, "saw ': note: ' here"⟩ := by
  have isName : IsFileName "C:\\src\\a.h".toList := by
    refine ⟨by decide, ?_, by decide⟩
    intro severity
    rw [← occursIn_iff_isInfix]
    cases severity <;> decide
  have hasNoLine : HasNoLine "C:\\src\\a.h".toList := by
    refine ⟨by decide, ?_⟩
    rintro front last equal noOther ⟨number, numeral⟩
    have split := splitLast?_append noOther front
    rw [← equal] at split
    have known : splitLast? ':' "C:\\src\\a.h".toList =
        some ("C".toList, "\\src\\a.h".toList) := by decide
    obtain ⟨-, rfl⟩ := Prod.mk.inj (Option.some.inj (known.symm.trans split))
    have read := readUInt32?_eq_some_iff.mpr numeral
    have unread : readUInt32? "\\src\\a.h".toList = none := by decide
    rw [unread] at read
    contradiction
  have message : trimEnd "saw ': note: ' here ".toList = "saw ': note: ' here".toList := by decide
  have withColumn : "C:\\src\\a.h:4:7: error: saw ': note: ' here ".toList =
      written (place "C:\\src\\a.h".toList [4, 7]) .error "saw ': note: ' here ".toList := by
    decide +kernel
  have withoutColumn : "C:\\src\\a.h:4: error: saw ': note: ' here ".toList =
      written (place "C:\\src\\a.h".toList [4]) .error "saw ': note: ' here ".toList := by
    decide +kernel
  have read := @isReadAs_written _ "saw ': note: ' here ".toList isName (by decide) 4 7 .error
  rw [message, String.ofList_toList, String.ofList_toList, ← withColumn, ← withoutColumn] at read
  exact ⟨isName, hasNoLine, read.1, read.2 hasNoLine⟩

end Diagnostic

end IncludeGate
