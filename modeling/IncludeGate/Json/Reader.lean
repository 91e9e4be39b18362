import IncludeGate.Json
import IncludeGate.Text.Numeral

/-!
# Reading JSON

The reader takes exactly the texts of RFC 8259 whose strings have no lone
surrogate and whose numbers are in the range of the 64-bit binary format.  Of
several members with the same key an object keeps the last value, at the place of
the first one.

A whole number of 64 bits is kept exactly.  Of any other number the digits that
make up to 64 bits count; they are rounded first and scaled by the power of ten
then, so the result may be a neighbour of the nearest binary number.

Every call that reads a value uses up at least one character, so the length of
the text bounds the depth of the recursion; `parse?` supplies that bound.
-/

namespace IncludeGate.Json

open Text

/-- A text without the blanks that JSON allows between tokens. -/
def skipBlanks (text : List Char) : List Char :=
  text.dropWhile fun character =>
    character == ' ' || character == '\t' || character == '\n' || character == '\r'

/-- The value of a hexadecimal digit in either case. -/
def hexValue? (character : Char) : Option Nat :=
  if '0' ≤ character ∧ character ≤ '9' then some (character.toNat - '0'.toNat)
  else if 'a' ≤ character ∧ character ≤ 'f' then some (character.toNat - 'a'.toNat + 10)
  else if 'A' ≤ character ∧ character ≤ 'F' then some (character.toNat - 'A'.toNat + 10)
  else none

/-- Read four hexadecimal digits. -/
def readUnit? : List Char → Option (Nat × List Char)
  | first :: second :: third :: fourth :: rest => do
      let digits ← [first, second, third, fourth].mapM hexValue?
      some (digits.foldl (fun value digit => value * 16 + digit) 0, rest)
  | _ => none

/-- Read the character of a `\u` escape, which may take two escapes. -/
def readEscapedUnit? (text : List Char) : Option (Char × List Char) := do
  let (unit, rest) ← readUnit? text
  if 0xD800 ≤ unit ∧ unit < 0xDC00 then
    match rest with
    | '\\' :: 'u' :: rest =>
        let (second, rest) ← readUnit? rest
        if 0xDC00 ≤ second ∧ second < 0xE000 then
          some (Char.ofNat (0x10000 + (unit - 0xD800) * 0x400 + (second - 0xDC00)), rest)
        else
          none
    | _ => none
  else if 0xDC00 ≤ unit ∧ unit < 0xE000 then
    none
  else
    some (Char.ofNat unit, rest)

/-- Read the character of an escape, after its backslash. -/
def readEscape? : List Char → Option (Char × List Char)
  | '"' :: rest => some ('"', rest)
  | '\\' :: rest => some ('\\', rest)
  | '/' :: rest => some ('/', rest)
  | 'b' :: rest => some (Char.ofNat 0x08, rest)
  | 'f' :: rest => some (Char.ofNat 0x0C, rest)
  | 'n' :: rest => some ('\n', rest)
  | 'r' :: rest => some ('\r', rest)
  | 't' :: rest => some ('\t', rest)
  | 'u' :: rest => readEscapedUnit? rest
  | _ => none

/-- Read the inside of a string and its closing quote. -/
def readString? : Nat → List Char → Option (List Char × List Char)
  | 0, _ => none
  | _ + 1, [] => none
  | fuel + 1, character :: rest =>
      if character = '"' then
        some ([], rest)
      else if character = '\\' then do
        let (escaped, rest) ← readEscape? rest
        let (text, rest) ← readString? fuel rest
        some (escaped :: text, rest)
      else if character.toNat < 0x20 then
        none
      else do
        let (text, rest) ← readString? fuel rest
        some (character :: text, rest)

/-- Split off the digits at the front of a text. -/
def spanDigits (text : List Char) : List Char × List Char :=
  (text.takeWhile isDigit, text.dropWhile isDigit)

/-- Read the exponent of a number, if there is one. -/
def readExponent? : List Char → Option (Option Int × List Char)
  | mark :: rest =>
      if mark = 'e' ∨ mark = 'E' then
        let (negative, rest) := match rest with
          | '+' :: rest => (false, rest)
          | '-' :: rest => (true, rest)
          | _ => (false, rest)
        let (digits, rest) := spanDigits rest
        if digits.isEmpty then none
        else
          let value : Int := digitsValue digits
          some (some (if negative then -value else value), rest)
      else some (none, mark :: rest)
  | [] => some (none, [])

/-- Append digits to a number as long as it has at most 64 bits, and give the digits
that are left. -/
def appendDigits (value : Nat) : List Char → Nat × List Char
  | [] => (value, [])
  | digit :: rest =>
      let longer := value * 10 + digitValue digit
      if longer < Nat.pow 2 64 then appendDigits longer rest else (value, digit :: rest)

/-- The number with a sign, the digits before and after the point, and a power of
ten, if it is in range. -/
def ofParts? (negative : Bool) (whole fraction : List Char) (power : Int) : Option Binary64 :=
  let (digits, wholeLeft) := appendDigits 0 whole
  let (digits, fractionLeft) := appendDigits digits fraction
  let places : Int := fraction.length - fractionLeft.length
  match Binary64.ofDecimalStepwise negative digits (power + wholeLeft.length - places) with
  | .infinite _ => none
  | value => some value

/-- Read a number. -/
def readNumber? (text : List Char) : Option (Json × List Char) := do
  let (negative, unsigned) := match text with
    | '-' :: rest => (true, rest)
    | _ => (false, text)
  let (whole, rest) := spanDigits unsigned
  if whole.isEmpty ∨ (whole.length > 1 ∧ whole.head? = some '0') then
    none
  let (fraction, rest) ← match rest with
    | '.' :: rest =>
        let (digits, rest) := spanDigits rest
        if digits.isEmpty then none else some (some digits, rest)
    | _ => some (none, rest)
  let (exponent, rest) ← readExponent? rest
  let value := digitsValue whole
  let fits := if negative then 0 < value ∧ value ≤ Nat.pow 2 63 else value < Nat.pow 2 64
  if fraction.isNone ∧ exponent.isNone ∧ fits then
    some (integer (if negative then -(value : Int) else value), rest)
  else do
    let value ← ofParts? negative whole (fraction.getD []) (exponent.getD 0)
    some (float value, rest)

/-- Put a member into an object. -/
def setMember (key : String) (value : Json) : List (String × Json) → List (String × Json)
  | [] => [(key, value)]
  | (other, old) :: rest =>
      if other = key then (other, value) :: rest else (other, old) :: setMember key value rest

mutual

/-- Read a value at the front of a text that begins with no blank. -/
def readValue? : Nat → List Char → Option (Json × List Char)
  | 0, _ => none
  | _ + 1, [] => none
  | fuel + 1, character :: rest =>
      if character = '\x7b' then
        match skipBlanks rest with
        | '\x7d' :: rest => some (object [], rest)
        | rest => do
            let (members, rest) ← readMembers? fuel [] rest
            some (object members, rest)
      else if character = '[' then
        match skipBlanks rest with
        | ']' :: rest => some (array [], rest)
        | rest => do
            let (items, rest) ← readItems? fuel rest
            some (array items, rest)
      else if character = '"' then do
        let (text, rest) ← readString? (rest.length + 1) rest
        some (string (String.ofList text), rest)
      else
        match character :: rest with
        | 'n' :: 'u' :: 'l' :: 'l' :: rest => some (null, rest)
        | 't' :: 'r' :: 'u' :: 'e' :: rest => some (bool true, rest)
        | 'f' :: 'a' :: 'l' :: 's' :: 'e' :: rest => some (bool false, rest)
        | text => readNumber? text

/-- Read the items of an array and its closing bracket. -/
def readItems? : Nat → List Char → Option (List Json × List Char)
  | 0, _ => none
  | fuel + 1, text => do
      let (item, rest) ← readValue? fuel text
      match skipBlanks rest with
      | ']' :: rest => some ([item], rest)
      | ',' :: rest =>
          let (items, rest) ← readItems? fuel (skipBlanks rest)
          some (item :: items, rest)
      | _ => none

/-- Read the members of an object and its closing brace, given those before. -/
def readMembers? : Nat → List (String × Json) → List Char →
    Option (List (String × Json) × List Char)
  | 0, _, _ => none
  | fuel + 1, members, '"' :: text => do
      let (key, rest) ← readString? (text.length + 1) text
      match skipBlanks rest with
      | ':' :: rest =>
          let (value, rest) ← readValue? fuel (skipBlanks rest)
          let members := setMember (String.ofList key) value members
          match skipBlanks rest with
          | '\x7d' :: rest => some (members, rest)
          | ',' :: rest => readMembers? fuel members (skipBlanks rest)
          | _ => none
      | _ => none
  | _ + 1, _, _ => none

end

/-- Read a text that holds one value and nothing else but blanks. -/
def parse? (text : List Char) : Option Json := do
  let (value, rest) ← readValue? (2 * text.length + 2) (skipBlanks text)
  if (skipBlanks rest).isEmpty then some value else none

end IncludeGate.Json
