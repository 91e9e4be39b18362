import IncludeGate.Proofs.Linemarker.Grammar
import IncludeGate.Proofs.Text.Utf8

/-!
# Line markers read back

A preprocessor is free in how it spells a file name between quotes: a character
stands for itself, or behind a backslash, or as octal escapes for its octets.
However a name is spelled, the marker is read as the number, the name and the
flags that it was written from.

A carriage return at the end of a line never matters to the reader, so markers
and other lines keep what they are where lines end with two characters.
-/

namespace IncludeGate.Linemarker

open Text

/-! ## Spelled names -/

/-- An octet as a backslash and three octal digits. -/
def octalEscape (octet : UInt8) : List Char :=
  ['\\', digitOf (octet.toNat / 64), digitOf (octet.toNat / 8 % 8), digitOf (octet.toNat % 8)]

/-- The spellings of a name between quotes.  Each character stands for itself, or
after a backslash, or as an escape for each of its octets. -/
inductive Spells : List Char → List Char → Prop where
  | nil : Spells [] []
  | plain {character : Char} {name text : List Char} :
      character ≠ '"' → character ≠ '\\' → Spells name text →
      Spells (character :: name) (character :: text)
  | escaped {character : Char} {name text : List Char} :
      octalDigit? character = none → Spells name text →
      Spells (character :: name) ('\\' :: character :: text)
  | octal (character : Char) {name text : List Char} :
      Spells name text →
      Spells (character :: name) ((Utf8.encodeChar character).flatMap octalEscape ++ text)

/-- The spelling of a character by compilers of the GNU kind: a backslash before
quotes and backslashes, octal escapes for control characters. -/
def spellChar (character : Char) : List Char :=
  if character = '"' ∨ character = '\\' then ['\\', character]
  else if character.toNat < 0x20 ∨ character.toNat = 0x7F then
    (Utf8.encodeChar character).flatMap octalEscape
  else [character]

/-- The spelling of a name by compilers of the GNU kind. -/
def spell (name : List Char) : List Char :=
  name.flatMap spellChar

theorem spells_spell (name : List Char) : Spells name (spell name) := by
  induction name with
  | nil => exact .nil
  | cons character name ih =>
      rw [spell, List.flatMap_cons, spellChar]
      split
      · rename_i protect
        refine .escaped ?_ ih
        rcases protect with rfl | rfl <;> decide
      · rename_i plain
        split
        · exact .octal character ih
        · exact .plain (fun quote => plain (Or.inl quote))
            (fun backslash => plain (Or.inr backslash)) ih

theorem octalDigit?_digitOf : ∀ value < 8, octalDigit? (digitOf value) = some value := by
  decide

theorem readQuoted?_octalEscape (octet : UInt8) (rest : List Char) :
    readQuoted? (octalEscape octet ++ rest) = (readQuoted? rest).map fun (octets, after) =>
      (octet :: octets, after) := by
  have size := octet.toNat_lt
  have high : octalDigit? (digitOf (octet.toNat / 64)) = some (octet.toNat / 64) :=
    octalDigit?_digitOf _ (by omega)
  have middle : octalDigit? (digitOf (octet.toNat / 8 % 8)) = some (octet.toNat / 8 % 8) :=
    octalDigit?_digitOf _ (by omega)
  have low : octalDigit? (digitOf (octet.toNat % 8)) = some (octet.toNat % 8) :=
    octalDigit?_digitOf _ (by omega)
  have sum : (octet.toNat / 64 * 8 + octet.toNat / 8 % 8) * 8 + octet.toNat % 8 =
      octet.toNat := by omega
  simp only [octalEscape, List.cons_append, List.nil_append]
  rw [readQuoted?_octal high]
  simp only [octalRun, middle, low, sum, UInt8.ofNat_toNat]

theorem readQuoted?_octalEscapes (octets : Bytes) (rest : List Char) :
    readQuoted? (octets.flatMap octalEscape ++ rest) =
      (readQuoted? rest).map fun (others, after) => (octets ++ others, after) := by
  induction octets with
  | nil => simp
  | cons octet octets ih =>
      rw [List.flatMap_cons, List.append_assoc, readQuoted?_octalEscape, ih, Option.map_map]
      rfl

/-- A spelled name is read as the octets of the name, up to the quote after it. -/
theorem Spells.readQuoted? {name text : List Char} (spelled : Spells name text)
    (rest : List Char) :
    Linemarker.readQuoted? (text ++ '"' :: rest) = some (Utf8.encode name, rest) := by
  induction spelled with
  | nil => exact readQuoted?_quote rest
  | plain noQuote noBackslash _ ih =>
      rw [List.cons_append, readQuoted?_plain noQuote noBackslash, ih]
      rfl
  | escaped noOctal _ ih =>
      rw [List.cons_append, List.cons_append, readQuoted?_escaped noOctal, ih]
      rfl
  | octal character _ ih =>
      rw [List.append_assoc, readQuoted?_octalEscapes, ih]
      rfl

/-! ## Written markers -/

/-- Flags in decimal. -/
def flagWords (flags : List UInt8) : List (List Char) :=
  flags.map fun flag => Nat.toDigits 10 flag.toNat

/-- The text of a line marker, given how its name is spelled. -/
def write (line : UInt32) (spelling : List Char) (flags : List UInt8) : List Char :=
  '#' :: ' ' :: Nat.toDigits 10 line.toNat ++ ' ' :: '"' :: spelling ++
    '"' :: (flagWords flags).flatMap (' ' :: ·)

theorem isWord_of_mem_flagWords (flags : List UInt8) : ∀ word ∈ flagWords flags, IsWord word := by
  intro word member
  obtain ⟨flag, -, rfl⟩ := List.mem_map.mp member
  exact (isDigits_toDigits flag.toNat).isWord

theorem mapM_readUInt8?_flagWords (flags : List UInt8) :
    (flagWords flags).mapM readUInt8? = some flags := by
  induction flags with
  | nil => rfl
  | cons flag flags ih =>
      rw [flagWords, List.map_cons, List.mapM_cons, readUInt8?_toDigits]
      rw [flagWords] at ih
      rw [ih]
      rfl

/-- A marker is read with the octets of its quoted name, whatever blanks its flags are written
with. -/
theorem parse?_of_quoted (line : UInt32) {quoted rest : List Char} {octets : Bytes}
    (name : readQuoted? (quoted ++ '"' :: rest) = some (octets, rest)) {flags : List UInt8}
    (spaced : Spaced (flagWords flags) rest) :
    parse? ('#' :: ' ' :: Nat.toDigits 10 line.toNat ++ ' ' :: '"' :: quoted ++ '"' :: rest) =
      some ⟨line, String.ofList (Utf8.decodeLossy octets), flags⟩ := by
  let layout : Layout :=
    ⟨false, [' '], Nat.toDigits 10 line.toNat, [' '], quoted, rest⟩
  have space : IsGap [' '] := isGap_nil.cons (by decide)
  have framed : layout.IsFramed := ⟨space, isDigits_toDigits line.toNat, space⟩
  have read : (words layout.rest).mapM readUInt8? = some flags := by
    rw [spaced.words_eq, mapM_readUInt8?_flagWords]
  have parsed := framed.parse?_eq_some (readUInt32?_toDigits line) name read
  rw [← parsed]
  simp [layout, Layout.text, Layout.word]

theorem parse?_of_spaced (line : UInt32) {name spelling rest : List Char}
    (spelled : Spells name spelling) {flags : List UInt8}
    (spaced : Spaced (flagWords flags) rest) :
    parse? ('#' :: ' ' :: Nat.toDigits 10 line.toNat ++ ' ' :: '"' :: spelling ++ '"' :: rest) =
      some ⟨line, String.ofList name, flags⟩ := by
  rw [parse?_of_quoted line (spelled.readQuoted? rest) spaced, Utf8.decodeLossy_encode]

theorem spaced_flagWords (flags : List UInt8) :
    Spaced (flagWords flags) ((flagWords flags).flatMap (' ' :: ·)) :=
  spaced_flatMap_space (isWord_of_mem_flagWords flags)

/-- A written marker is read as what it was written from. -/
theorem parse?_write (line : UInt32) {name spelling : List Char}
    (spelled : Spells name spelling) (flags : List UInt8) :
    parse? (write line spelling flags) = some ⟨line, String.ofList name, flags⟩ :=
  parse?_of_spaced line spelled (spaced_flagWords flags)

theorem entersFile_iff (marker : Linemarker) : marker.entersFile = true ↔ 1 ∈ marker.flags :=
  List.contains_iff_mem

theorem returnsToFile_iff (marker : Linemarker) :
    marker.returnsToFile = true ↔ 2 ∈ marker.flags :=
  List.contains_iff_mem

/-- A marker is read as itself from each text of it: its name may be spelled in any way and
its flags may have any blanks between them.  The flags tell what the marker does. -/
theorem parse?_of_spelled (marker : Linemarker) {spelling rest : List Char}
    (spelled : Spells marker.file.toList spelling)
    (spaced : Spaced (flagWords marker.flags) rest) :
    parse? ('#' :: ' ' :: Nat.toDigits 10 marker.line.toNat ++
      ' ' :: '"' :: spelling ++ '"' :: rest) = some marker ∧
      (marker.entersFile = true ↔ 1 ∈ marker.flags) ∧
      (marker.returnsToFile = true ↔ 2 ∈ marker.flags) := by
  refine ⟨?_, marker.entersFile_iff, marker.returnsToFile_iff⟩
  rw [parse?_of_spaced marker.line spelled spaced, String.ofList_toList]

/-- Octal escapes before a digit that stands for itself, and a name with a quote. -/
theorem parse?_escapedName :
    Spells "é7\t\"q".toList "\\303\\2517\\011\\\"\\q".toList ∧
      Spaced (flagWords [1, 3, 200]) "\t1\u00A0 3 200 ".toList ∧
      parse? "# 42 \"\\303\\2517\\011\\\"\\q\"\t1\u00A0 3 200 ".toList =
        some ⟨42, "é7\t\"q", [1, 3, 200]⟩ := by
  have spelled : Spells "é7\t\"q".toList "\\303\\2517\\011\\\"\\q".toList :=
    .octal 'é' (.plain (by decide) (by decide)
      (.octal '\t' (.escaped (by decide) (.escaped (by decide) .nil))))
  have spaced : Spaced (flagWords [1, 3, 200]) "\t1\u00A0 3 200 ".toList :=
    words_eq_iff.mp (by decide)
  exact ⟨spelled, spaced, (parse?_of_spelled ⟨42, "é7\t\"q", [1, 3, 200]⟩ spelled spaced).1⟩

theorem newline_not_mem_digits (number : Nat) : '\n' ∉ Nat.toDigits 10 number :=
  fun member => absurd (isDigit_of_mem_toDigits member) (by decide)

theorem newline_not_mem_write {line : UInt32} {spelling : List Char} {flags : List UInt8}
    (oneLine : '\n' ∉ spelling) : '\n' ∉ write line spelling flags := by
  have words : '\n' ∉ (flagWords flags).flatMap (' ' :: ·) := by
    intro member
    obtain ⟨word, written, inWord⟩ := List.mem_flatMap.mp member
    obtain ⟨flag, -, rfl⟩ := List.mem_map.mp written
    rcases List.mem_cons.mp inWord with space | inDigits
    · exact absurd space (by decide)
    · exact newline_not_mem_digits _ inDigits
  simp [write, newline_not_mem_digits, oneLine, words]

/-- The lines that say what a marker says.  The spelling of the name is free, but
keeps to the line. -/
def WrittenAs (marker : Linemarker) (text : List Char) : Prop :=
  ∃ spelling, Spells marker.file.toList spelling ∧ '\n' ∉ spelling ∧
    text = write marker.line spelling marker.flags

/-- A marker is read from each line that it is written as. -/
theorem WrittenAs.parse? {marker : Linemarker} {text : List Char}
    (written : marker.WrittenAs text) : Linemarker.parse? text = some marker := by
  obtain ⟨spelling, spelled, -, rfl⟩ := written
  rw [parse?_write marker.line spelled, String.ofList_toList]

theorem WrittenAs.oneLine {marker : Linemarker} {text : List Char}
    (written : marker.WrittenAs text) : '\n' ∉ text := by
  obtain ⟨spelling, -, oneLine, rfl⟩ := written
  exact newline_not_mem_write oneLine

theorem newline_not_mem_octalEscape (octet : UInt8) : '\n' ∉ octalEscape octet := by
  have digit : ∀ value < 8, '\n' ≠ digitOf value := by decide
  have size := octet.toNat_lt
  simp only [octalEscape, List.mem_cons, List.not_mem_nil, or_false, not_or]
  exact ⟨by decide, digit _ (by omega), digit _ (by omega), digit _ (by omega)⟩

theorem newline_not_mem_spell (name : List Char) : '\n' ∉ spell name := by
  intro member
  obtain ⟨character, -, inSpelling⟩ := List.mem_flatMap.mp member
  revert inSpelling
  unfold spellChar
  split
  · rename_i protect
    rcases protect with rfl | rfl <;> decide
  · split
    · intro inEscapes
      obtain ⟨octet, -, inEscape⟩ := List.mem_flatMap.mp inEscapes
      exact newline_not_mem_octalEscape octet inEscape
    · rename_i printable
      rw [List.mem_singleton]
      rintro rfl
      exact printable (Or.inl (by decide))

/-- The line that a compiler of the GNU kind prints for a marker. -/
def print (marker : Linemarker) : List Char :=
  write marker.line (spell marker.file.toList) marker.flags

theorem writtenAs_print (marker : Linemarker) : marker.WrittenAs marker.print :=
  ⟨_, spells_spell _, newline_not_mem_spell _, rfl⟩

/-! ## Blanks after a marker -/

theorem takeWhile_concat {accept : Char → Bool} {last : Char} (rejected : accept last = false)
    (text : List Char) : (text ++ [last]).takeWhile accept = text.takeWhile accept := by
  induction text with
  | nil => simp [rejected]
  | cons character text ih => simp only [List.cons_append, List.takeWhile_cons, ih]

theorem dropWhile_concat {accept : Char → Bool} {last : Char} (rejected : accept last = false)
    (text : List Char) :
    (text ++ [last]).dropWhile accept = text.dropWhile accept ++ [last] := by
  induction text with
  | nil => simp [rejected]
  | cons character text ih =>
      simp only [List.cons_append, List.dropWhile_cons, ih]
      split <;> rfl

/-- A blank at the end goes only where everything before it is blank, too. -/
theorem trimStart_concat_blank {blank : Char} (isBlank : isBlank blank = true)
    (text : List Char) :
    trimStart (text ++ [blank]) = trimStart text ++ [blank] ∨
      trimStart (text ++ [blank]) = [] ∧ trimStart text = [] := by
  induction text with
  | nil => exact Or.inr ⟨by simp [trimStart, isBlank], rfl⟩
  | cons character text ih =>
      cases solid : Text.isBlank character with
      | true =>
          rw [List.cons_append, trimStart_cons_of_blank solid, trimStart_cons_of_blank solid]
          exact ih
      | false =>
          rw [List.cons_append, trimStart_cons_of_not_blank solid,
            trimStart_cons_of_not_blank solid]
          exact Or.inl rfl

theorem octalRun_concat {last : Char} (noOctal : octalDigit? last = none)
    (count value : Nat) (text : List Char) :
    octalRun count value (text ++ [last]) =
      ((octalRun count value text).1, (octalRun count value text).2 ++ [last]) := by
  induction count generalizing value text with
  | zero => rfl
  | succ count ih =>
      cases text with
      | nil => simp [octalRun, noOctal]
      | cons character text =>
          simp only [List.cons_append, octalRun]
          cases octalDigit? character with
          | some digit => exact ih _ _
          | none => rfl

/-- A character that neither closes a name nor belongs to an escape stays behind the
name. -/
theorem readQuoted?_concat {last : Char} (noQuote : last ≠ '"') (noBackslash : last ≠ '\\')
    (noOctal : octalDigit? last = none) (text : List Char) :
    readQuoted? (text ++ [last]) =
      (readQuoted? text).map fun (octets, after) => (octets, after ++ [last]) := by
  fun_induction readQuoted? text with
  | case1 => rw [List.nil_append, readQuoted?_plain noQuote noBackslash, readQuoted?_nil]; rfl
  | case2 rest => rw [List.cons_append, readQuoted?_quote]; rfl
  | case3 =>
      rw [List.cons_append, List.nil_append, readQuoted?_escaped noOctal, readQuoted?_nil]
      rfl
  | case4 escaped rest digit octal _ ih =>
      rw [List.cons_append, List.cons_append, readQuoted?_octal octal,
        octalRun_concat noOctal, ih, Option.map_map, Option.map_map]
      rfl
  | case5 escaped rest other _ ih =>
      rw [List.cons_append, List.cons_append, readQuoted?_escaped other, ih, Option.map_map,
        Option.map_map]
      rfl
  | case6 character rest other solid ih =>
      rw [List.cons_append, readQuoted?_plain other solid, ih, Option.map_map, Option.map_map]
      rfl

theorem readQuoted?_concat_return (text : List Char) :
    readQuoted? (text ++ ['\r']) =
      (readQuoted? text).map fun (octets, after) => (octets, after ++ ['\r']) :=
  readQuoted?_concat (by decide) (by decide) (by decide) text

theorem trimStart_concat_return (text : List Char) :
    trimStart (text ++ ['\r']) = trimStart text ++ ['\r'] ∨
      trimStart (text ++ ['\r']) = [] ∧ trimStart text = [] :=
  trimStart_concat_blank (by decide) text

theorem words_concat_return (text : List Char) : words (text ++ ['\r']) = words text :=
  words_concat_blank (by decide) text

/-- A carriage return at the end of a line does not decide on whether the line is a
marker, nor on which one. -/
theorem parse?_concat_return (text : List Char) : parse? (text ++ ['\r']) = parse? text := by
  have hash : dropStart? ['#'] (text ++ ['\r']) = (dropStart? ['#'] text).map (· ++ ['\r']) :=
    dropStart?_concat (by decide) text
  cases afterHash : dropStart? ['#'] text with
  | none => simp [parse?, hash, afterHash]
  | some rest =>
      have word : (dropStart? ['l', 'i', 'n', 'e'] (rest ++ ['\r'])).getD (rest ++ ['\r']) =
          (dropStart? ['l', 'i', 'n', 'e'] rest).getD rest ++ ['\r'] := by
        rw [dropStart?_concat (by decide)]
        cases dropStart? ['l', 'i', 'n', 'e'] rest <;> rfl
      simp only [parse?, hash, afterHash, word, Option.map_some, Option.bind_eq_bind,
        Option.bind_some]
      rcases trimStart_concat_return
        ((dropStart? ['l', 'i', 'n', 'e'] rest).getD rest) with kept | ⟨gone, none⟩
      · rw [kept, takeWhile_concat (by decide), dropWhile_concat (by decide)]
        generalize trimStart ((dropStart? ['l', 'i', 'n', 'e'] rest).getD rest) = numbered
        rcases trimStart_concat_return (numbered.dropWhile isDigit) with
          kept | ⟨gone, none⟩
        · rw [kept, dropStart?_concat (by decide)]
          cases dropStart? ['"'] (trimStart (numbered.dropWhile isDigit)) with
          | none => rfl
          | some quoted =>
              simp only [Option.map_some, Option.bind_some, readQuoted?_concat_return]
              cases readQuoted? quoted with
              | none => rfl
              | some read =>
                  simp only [Option.map_some, Option.bind_some, words_concat_return]
        · rw [gone, none]
      · rw [gone, none]

/-- The carriage return that is dropped from a line is of no concern for a marker. -/
@[simp] theorem parse?_dropReturn (line : List Char) :
    parse? (dropReturn line) = parse? line := by
  unfold dropReturn
  split
  · rename_i ends
    obtain ⟨front, rfl⟩ := List.getLast?_eq_some_iff.mp ends
    rw [List.dropLast_concat, parse?_concat_return]
  · rfl

end IncludeGate.Linemarker
