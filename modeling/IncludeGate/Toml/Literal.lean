import IncludeGate.Text.Numeral
import IncludeGate.Text.Search
import IncludeGate.Toml

/-!
# TOML strings

Basic strings stand between double quotes and know escapes; literal strings stand
between single quotes and know none.  Tripled quotes make a string of several
lines, whose first line break does not count and which may end with one or two
quotes of its own.

Every step of a reader uses up a character, so the length of the text bounds the
number of steps.
-/

namespace IncludeGate.Toml

open Text

/-- A character that may stand in a comment or a string as it is. -/
def isPlain (character : Char) : Bool :=
  character == '\t' || (0x20 ≤ character.toNat && character.toNat != 0x7F)

/-- A blank inside a line. -/
def isGap (character : Char) : Bool :=
  character == ' ' || character == '\t'

/-- The rest of a text after a line break at its front. -/
def dropLineBreak? : List Char → Option (List Char)
  | '\n' :: rest => some rest
  | '\r' :: '\n' :: rest => some rest
  | _ => none

/-- The value of a digit in a base of at most sixteen. -/
def digitIn? (base : Nat) (character : Char) : Option Nat :=
  let value :=
    if isDigit character then character.toNat - '0'.toNat
    else if 'a' ≤ character ∧ character ≤ 'f' then character.toNat - 'a'.toNat + 10
    else if 'A' ≤ character ∧ character ≤ 'F' then character.toNat - 'A'.toNat + 10
    else base
  if value < base then some value else none

/-- The value of digits in a base. -/
def valueIn? (base : Nat) (digits : List Char) : Option Nat := do
  let values ← digits.mapM (digitIn? base)
  some (values.foldl (fun value digit => value * base + digit) 0)

/-- Read the code point of an escape with a set number of hexadecimal digits. -/
def readCodePoint? (width : Nat) (text : List Char) : Option (Char × List Char) := do
  let digits := text.take width
  let code ← if digits.length = width then valueIn? 16 digits else none
  if code < 0xD800 ∨ (0xE000 ≤ code ∧ code < 0x110000) then
    some (Char.ofNat code, text.drop width)
  else
    none

/-- Read an escape after its backslash. -/
def readEscape? : List Char → Option (Char × List Char)
  | 'b' :: rest => some (Char.ofNat 0x08, rest)
  | 't' :: rest => some ('\t', rest)
  | 'n' :: rest => some ('\n', rest)
  | 'f' :: rest => some (Char.ofNat 0x0C, rest)
  | 'r' :: rest => some ('\r', rest)
  | 'e' :: rest => some (Char.ofNat 0x1B, rest)
  | '"' :: rest => some ('"', rest)
  | '\\' :: rest => some ('\\', rest)
  | 'x' :: rest => readCodePoint? 2 rest
  | 'u' :: rest => readCodePoint? 4 rest
  | 'U' :: rest => readCodePoint? 8 rest
  | _ => none

/-- Read the inside of a string of one line and its closing quote.  A double
quote opens a basic string, a single quote a literal one. -/
def readLine? (quote : Char) : Nat → List Char → Option (List Char × List Char)
  | 0, _ => none
  | _ + 1, [] => none
  | fuel + 1, character :: rest =>
      if character = quote then
        some ([], rest)
      else if character = '\\' ∧ quote = '"' then do
        let (escaped, rest) ← readEscape? rest
        let (text, rest) ← readLine? quote fuel rest
        some (escaped :: text, rest)
      else if isPlain character then do
        let (text, rest) ← readLine? quote fuel rest
        some (character :: text, rest)
      else
        none

/-- The text after the blanks and line breaks at its front. -/
def dropEmptyLines : List Char → List Char
  | '\r' :: '\n' :: rest => dropEmptyLines rest
  | character :: rest =>
      if isGap character || character == '\n' then dropEmptyLines rest else character :: rest
  | [] => []

/-- The rest of a text after a line break that blanks may precede, and after all
blanks and line breaks that follow. -/
def dropContinuation? (text : List Char) : Option (List Char) :=
  (dropLineBreak? (text.dropWhile isGap)).map dropEmptyLines

/-- Read the inside of a string of several lines and its closing quotes.  A
backslash at the end of a line of a basic string joins the next line with
something in it. -/
def readBlock? (quote : Char) : Nat → List Char → Option (List Char × List Char)
  | 0, _ => none
  | _ + 1, [] => none
  | fuel + 1, character :: rest =>
      let text := character :: rest
      if [quote, quote, quote].isPrefixOf text then
        let count := min 5 (text.takeWhile (· == quote)).length
        some (List.replicate (count - 3) quote, text.drop count)
      else if character = '\\' ∧ quote = '"' then
        match dropContinuation? rest with
        | some rest => readBlock? quote fuel rest
        | none => do
            let (escaped, rest) ← readEscape? rest
            let (text, rest) ← readBlock? quote fuel rest
            some (escaped :: text, rest)
      else
        match dropLineBreak? text with
        | some after => do
            let (text, rest) ← readBlock? quote fuel after
            some (if character = '\r' then '\r' :: '\n' :: text else '\n' :: text, rest)
        | none =>
            if isPlain character then do
              let (text, rest) ← readBlock? quote fuel rest
              some (character :: text, rest)
            else
              none

/-- Read a string of one line, given its opening quote. -/
def readLineString? (quote : Char) (rest : List Char) : Option (String × List Char) := do
  let (text, rest) ← readLine? quote (rest.length + 1) rest
  some (String.ofList text, rest)

/-- Read a string, given the first of its opening quotes. -/
def readString? (quote : Char) (rest : List Char) : Option (String × List Char) :=
  match dropStart? [quote, quote] rest with
  | some rest => do
      let rest := (dropLineBreak? rest).getD rest
      let (text, rest) ← readBlock? quote (rest.length + 1) rest
      some (String.ofList text, rest)
  | none => readLineString? quote rest

end IncludeGate.Toml
