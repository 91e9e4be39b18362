import IncludeGate.Proofs.Text.Written
import IncludeGate.Timestamp

/-!
# Written timestamps read back

Every part of a timestamp is written with a fixed number of digits, except the fraction of a
second, which loses the zeros at its end.
-/

namespace IncludeGate

open Text

namespace Timestamp

theorem takeDigits?_fixedDigits {width value : Nat} (positive : 0 < width)
    (fits : value < 10 ^ width) (rest : List Char) :
    takeDigits? width (fixedDigits width value ++ rest) = some (value, rest) := by
  have front : (fixedDigits width value ++ rest).take width = fixedDigits width value :=
    List.take_left' (length_fixedDigits width value)
  have back : (fixedDigits width value ++ rest).drop width = rest :=
    List.drop_left' (length_fixedDigits width value)
  have digits : (fixedDigits width value).all isDigit = true :=
    List.all_eq_true.mpr fun _ => isDigit_of_mem_fixedDigits
  have filled : (fixedDigits width value).isEmpty = false := by
    rw [← Bool.not_eq_true, List.isEmpty_iff_length_eq_zero, length_fixedDigits]
    omega
  simp [takeDigits?, front, back, readDigits?, filled, digits, digitsValue_fixedDigits fits]

theorem takeTwoDigits?_fixedDigits {value : Nat} (fits : value < 100) (rest : List Char) :
    takeDigits? 2 (fixedDigits 2 value ++ rest) = some (value, rest) :=
  takeDigits?_fixedDigits (by decide) fits rest

theorem exists_replicate_append_dropWhile (character : Char) (text : List Char) :
    ∃ count, text = List.replicate count character ++ text.dropWhile (· == character) := by
  induction text with
  | nil => exact ⟨0, rfl⟩
  | cons first text ih =>
      by_cases same : first = character
      · obtain ⟨count, written⟩ := ih
        refine ⟨count + 1, ?_⟩
        rw [same, List.dropWhile_cons_of_pos (by simp), List.replicate_succ, List.cons_append,
          ← written]
      · exact ⟨0, by simp [same]⟩

/-- With the zeros at its end, a fraction has nine digits. -/
theorem exists_fixedDigits_eq (nanosecond : Nat) :
    ∃ zeros, fixedDigits 9 nanosecond =
      fractionDigits nanosecond ++ List.replicate zeros '0' := by
  obtain ⟨zeros, written⟩ :=
    exists_replicate_append_dropWhile '0' (fixedDigits 9 nanosecond).reverse
  refine ⟨zeros, ?_⟩
  rw [fractionDigits, ← List.reverse_inj, List.reverse_append, List.reverse_replicate,
    List.reverse_reverse]
  exact written

theorem fractionValue_fractionDigits {nanosecond : Nat} (fits : nanosecond < 10 ^ 9) :
    fractionValue (fractionDigits nanosecond) = nanosecond := by
  obtain ⟨zeros, written⟩ := exists_fixedDigits_eq nanosecond
  have length := congrArg List.length written
  rw [length_fixedDigits, List.length_append, List.length_replicate] at length
  have zeros_eq : min (9 - (fractionDigits nanosecond).length) 9 = zeros := by omega
  have padded : (fractionDigits nanosecond ++ List.replicate 9 '0').take 9 =
      fixedDigits 9 nanosecond := by
    rw [written, List.take_append, List.take_of_length_le (by omega), List.take_replicate,
      zeros_eq]
  rw [fractionValue, padded, digitsValue_fixedDigits fits]

theorem isDigit_of_mem_fractionDigits {nanosecond : Nat} {digit : Char}
    (member : digit ∈ fractionDigits nanosecond) : isDigit digit = true := by
  obtain ⟨zeros, written⟩ := exists_fixedDigits_eq nanosecond
  have kept : digit ∈ fixedDigits 9 nanosecond := by
    rw [written]
    exact List.mem_append_left _ member
  exact isDigit_of_mem_fixedDigits kept

/-- An offset begins with a character of its own. -/
theorem exists_offsetText (offset : Int) :
    ∃ first rest, offsetText offset = first :: rest ∧ first ∈ ['Z', '+', '-'] := by
  unfold offsetText
  split
  · exact ⟨'Z', _, rfl, by decide⟩
  · split
    · exact ⟨'-', _, rfl, by decide⟩
    · exact ⟨'+', _, rfl, by decide⟩

theorem readFraction?_written {nanosecond : Nat} (fits : nanosecond < 10 ^ 9) (offset : Int) :
    readFraction? ((if fractionDigits nanosecond = [] then []
        else '.' :: fractionDigits nanosecond) ++ offsetText offset) =
      some (nanosecond, offsetText offset) := by
  obtain ⟨first, rest, written, opens⟩ := exists_offsetText offset
  have value := fractionValue_fractionDigits fits
  have closed : isDigit first = false ∧ first ≠ '.' := by
    simp only [List.mem_cons, List.not_mem_nil, or_false] at opens
    rcases opens with rfl | rfl | rfl <;> decide
  obtain ⟨noDigit, noPoint⟩ := closed
  have stops : ∀ character ∈ (first :: rest).head?, isDigit character = false := by
    intro character same
    cases same
    exact noDigit
  have digits : ∀ digit ∈ fractionDigits nanosecond, isDigit digit = true :=
    fun _ => isDigit_of_mem_fractionDigits
  have run := span_append digits stops
  rw [written]
  split
  · rename_i empty
    rw [empty] at value
    have zero : nanosecond = 0 := value.symm.trans (by decide)
    simp [readFraction?, noPoint, zero]
  · rename_i filled
    simp [readFraction?, run, filled, value]

theorem readOffset?_offsetText {offset : Int} (inside : -1440 < offset ∧ offset < 1440) :
    readOffset? (offsetText offset) = some offset := by
  by_cases none : offset = 0
  · subst none
    rfl
  obtain ⟨minutes, size⟩ : ∃ minutes, offset.natAbs = minutes := ⟨_, rfl⟩
  have bounds : minutes / 60 < 24 ∧ minutes % 60 < 60 := by omega
  have hourDigits := takeTwoDigits?_fixedDigits (Nat.lt_trans bounds.1 (by decide))
    (':' :: fixedDigits 2 (minutes % 60))
  have minuteDigits := takeTwoDigits?_fixedDigits (Nat.lt_trans bounds.2 (by decide)) []
  rw [List.append_nil] at minuteDigits
  by_cases negative : offset < 0
  · simp [readOffset?, offsetText, none, negative, size, hourDigits, minuteDigits, dropStart?,
      bounds]
    omega
  · simp [readOffset?, offsetText, none, negative, size, hourDigits, minuteDigits, dropStart?,
      bounds]
    omega

theorem ofParts?_self (timestamp : Timestamp) :
    ofParts? timestamp.year timestamp.month timestamp.day timestamp.hour timestamp.minute
      timestamp.second timestamp.nanosecond timestamp.offset = some timestamp := by
  rw [ofParts?, dif_pos ⟨timestamp.year_le, timestamp.month_mem, timestamp.day_mem,
    timestamp.hour_lt, timestamp.minute_lt, timestamp.second_lt, timestamp.nanosecond_lt,
    timestamp.offset_mem⟩]

theorem daysInMonth_le (year month : Nat) : Calendar.daysInMonth year month ≤ 31 := by
  unfold Calendar.daysInMonth
  split
  · split <;> decide
  · split <;> decide

/-- A timestamp is read from its text. -/
@[simp] theorem parse?_text (timestamp : Timestamp) : parse? timestamp.text = some timestamp := by
  have year : ∀ rest, takeDigits? 4 (fixedDigits 4 timestamp.year ++ rest) =
      some (timestamp.year, rest) :=
    takeDigits?_fixedDigits (by decide) (Nat.lt_succ_of_le timestamp.year_le)
  have month := takeTwoDigits?_fixedDigits (Nat.lt_of_le_of_lt timestamp.month_mem.2 (by decide))
  have day := takeTwoDigits?_fixedDigits (Nat.lt_of_le_of_lt (Nat.le_trans timestamp.day_mem.2
    (daysInMonth_le _ _)) (by decide))
  have hour := takeTwoDigits?_fixedDigits (Nat.lt_trans timestamp.hour_lt (by decide))
  have minute := takeTwoDigits?_fixedDigits (Nat.lt_trans timestamp.minute_lt (by decide))
  have second := takeTwoDigits?_fixedDigits (Nat.lt_trans timestamp.second_lt (by decide))
  have fraction := readFraction?_written timestamp.nanosecond_lt timestamp.offset
  have offset := readOffset?_offsetText timestamp.offset_mem
  have notLeap : timestamp.second ≠ 60 := Nat.ne_of_lt timestamp.second_lt
  rw [parse?, text]
  simp [year, month, day, hour, minute, second, fraction, offset, dropStart?, notLeap,
    ofParts?_self]

end Timestamp

end IncludeGate
