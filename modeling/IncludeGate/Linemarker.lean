import IncludeGate.Text.Numeral
import IncludeGate.Text.Pieces
import IncludeGate.Text.Search
import IncludeGate.Text.Utf8

/-!
# Line markers

A preprocessor says where the text that follows comes from by a line such as
`# 3 "include/a.h" 1`: a line number, a file name between double quotes and
flags.  Flag 1 enters a file and flag 2 returns to one.  Inside the quotes a
backslash protects the next character, and one to three octal digits after it
stand for a single octet, so that a name is decoded as octets and only then as
text.
-/

namespace IncludeGate

open Text

/-- What a line marker says. -/
structure Linemarker where
  /-- The number of the line that follows. -/
  line : UInt32
  /-- The file that the line belongs to. -/
  file : String
  flags : List UInt8
  deriving DecidableEq, Repr

namespace Linemarker

/-- Whether the marker enters a file. -/
def entersFile (marker : Linemarker) : Bool :=
  marker.flags.contains 1

/-- Whether the marker returns to a file. -/
def returnsToFile (marker : Linemarker) : Bool :=
  marker.flags.contains 2

/-- The value of an octal digit. -/
def octalDigit? (character : Char) : Option Nat :=
  if '0'.toNat ≤ character.toNat ∧ character.toNat ≤ '7'.toNat then
    some (character.toNat - '0'.toNat)
  else
    none

/-- Read at most the given number of further octal digits. -/
def octalRun : Nat → Nat → List Char → Nat × List Char
  | 0, value, text => (value, text)
  | _ + 1, value, [] => (value, [])
  | count + 1, value, character :: rest =>
      match octalDigit? character with
      | some digit => octalRun count (value * 8 + digit) rest
      | none => (value, character :: rest)

theorem octalRun_length_le (count value : Nat) (text : List Char) :
    (octalRun count value text).2.length ≤ text.length := by
  induction count generalizing value text with
  | zero => simp [octalRun]
  | succ count ih =>
      cases text with
      | nil => simp [octalRun]
      | cons character rest =>
          unfold octalRun
          split
          · exact Nat.le_succ_of_le (ih ..)
          · simp

/-- Read the inside of a quoted name: its octets, and the text after the quote
that closes it.  An octal escape gives the last eight bits of its value. -/
def readQuoted? : List Char → Option (Bytes × List Char)
  | [] => none
  | character :: rest =>
      if character = '"' then
        some ([], rest)
      else if character = '\\' then
        match rest with
        | [] => none
        | escaped :: rest =>
            match octalDigit? escaped with
            | some digit =>
                (readQuoted? (octalRun 2 digit rest).2).map fun (octets, after) =>
                  (UInt8.ofNat (octalRun 2 digit rest).1 :: octets, after)
            | none =>
                (readQuoted? rest).map fun (octets, after) =>
                  (Utf8.encodeChar escaped ++ octets, after)
      else
        (readQuoted? rest).map fun (octets, after) =>
          (Utf8.encodeChar character ++ octets, after)
termination_by text => text.length
decreasing_by
  all_goals simp only [List.length_cons]
  · have := octalRun_length_le 2 digit rest
    omega
  · omega
  · omega

/-- Read a line as a line marker: `#`, the word `line` or not, a number, a quoted
name and any number of flags, with blanks between them. -/
def parse? (text : List Char) : Option Linemarker := do
  let afterHash ← dropStart? ['#'] text
  let afterWord := (dropStart? ['l', 'i', 'n', 'e'] afterHash).getD afterHash
  let numbered := trimStart afterWord
  let line ← readUInt32? (numbered.takeWhile isDigit)
  let quoted ← dropStart? ['"'] (trimStart (numbered.dropWhile isDigit))
  let (name, rest) ← readQuoted? quoted
  let flags ← (words rest).mapM readUInt8?
  some ⟨line, String.ofList (Utf8.decodeLossy name), flags⟩

end Linemarker

end IncludeGate
