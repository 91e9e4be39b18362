import IncludeGate.Timestamp
import IncludeGate.Toml.Literal

/-!
# TOML numbers, booleans, dates and times

These values are written as one run of characters, which is read here as a whole.
Blanks belong to a run where it goes on after them, as between a date and a time.

What comes after the digits at the front of a run tells what it is: a date or a
time goes on with a dash or a colon or has a space somewhere, a floating-point
number has a point or the letter of a power of ten somewhere, and an integer goes
on with an underscore or ends.

Underscores stand between two digits.  Those of an integer are all that is looked
at here after its first digits, and the letters up to `f` count as digits beside
them.  What stands for no number after all is `Toml.unrepresentable`, as is an
integer in another base without digits.
-/

namespace IncludeGate.Toml

open Text

/-- Whether underscores stand only before and after members of a class, given
whether such a member stands before the text. -/
def isSeparated (isMember : Char → Bool) : Bool → List Char → Bool
  | _, [] => true
  | mayFollow, '_' :: rest =>
      mayFollow && (rest.head?.map isMember).getD false && isSeparated isMember false rest
  | _, character :: rest => isSeparated isMember (isMember character) rest

/-- The text without its underscores. -/
def withoutUnderscores : List Char → List Char :=
  List.filter (· != '_')

/-- The sign of a number and the text after it. -/
def splitSign : List Char → Bool × List Char
  | '+' :: rest => (false, rest)
  | '-' :: rest => (true, rest)
  | text => (false, text)

/-- The integer with a sign and a magnitude.  Signed and unsigned numbers of 128
bits can be represented. -/
def ofMagnitude (negative : Bool) (magnitude : Nat) : Toml :=
  if negative then
    if magnitude ≤ Nat.pow 2 127 then integer (-(magnitude : Int)) else unrepresentable
  else
    if magnitude < Nat.pow 2 128 then integer magnitude else unrepresentable

/-- A digit of the greatest base. -/
def isHexadecimal (character : Char) : Bool :=
  (digitIn? 16 character).isSome

/-- Read a decimal integer after its sign, if it has one. -/
def decimalInteger? (negative : Bool) (text : List Char) : Option Toml :=
  let startsWithZero := text.head? == some '0' && 1 < text.length
  let endsOrJoins := (text.dropWhile isDigit).head?.getD '_' == '_'
  if text.isEmpty || startsWithZero || !endsOrJoins || !isSeparated isHexadecimal false text then
    none
  else
    some (((readDigits? (withoutUnderscores text)).map (ofMagnitude negative)).getD unrepresentable)

/-- Read an integer in another base, which has no sign. -/
def basedInteger? : List Char → Option Toml
  | '0' :: mark :: digits => do
      let base ← match mark with
        | 'x' => some 16
        | 'o' => some 8
        | 'b' => some 2
        | _ => none
      let magnitude ← valueIn? base (withoutUnderscores digits)
      if !isSeparated isHexadecimal false digits then none
      else if digits.isEmpty then some unrepresentable
      else some (ofMagnitude false magnitude)
  | _ => none

/-- The number with a sign, decimal digits and a power of ten. -/
def ofDecimal (negative : Bool) (digits : Nat) (power : Int) : Toml :=
  match Binary64.ofDecimal negative digits power with
  | .infinite _ => unrepresentable
  | value => float value

/-- The digits at the front of a text, among which underscores may stand, and the
text after them. -/
def readDigitRun? (text : List Char) : Option (List Char × List Char) :=
  let isPart (character : Char) : Bool := isDigit character || character == '_'
  let digits := withoutUnderscores (text.takeWhile isPart)
  if digits.isEmpty then none else some (digits, text.dropWhile isPart)

/-- Read a power of ten after its letter. -/
def power? (text : List Char) : Option Int := do
  let (negative, unsigned) := splitSign text
  let (digits, rest) ← readDigitRun? unsigned
  let value : Int := digitsValue digits
  if !rest.isEmpty then none
  else some (if negative then -value else value)

/-- Read a number with a fraction, a power of ten or both, after its sign, if it has
one. -/
def decimalFloat? (negative : Bool) (text : List Char) : Option Toml := do
  let (whole, rest) ← readDigitRun? text
  let (fraction, rest) ← match rest with
    | '.' :: rest => readDigitRun? rest
    | _ => some ([], rest)
  let power ← match rest with
    | [] => some 0
    | mark :: rest => if mark = 'e' ∨ mark = 'E' then power? rest else none
  let startsWithZero := text.head? == some '0' && 1 < whole.length
  if startsWithZero || !isSeparated isDigit false text then none
  else some (ofDecimal negative (digitsValue (whole ++ fraction)) (power - fraction.length))

/-- Read the name of a number. -/
def namedFloat? (text : List Char) : Option Toml :=
  let (negative, name) := splitSign text
  if name = ['i', 'n', 'f'] then some (float (.infinite negative))
  else if name = ['n', 'a', 'n'] then some (float .notANumber)
  else none

/-- Read the name of a truth value. -/
def namedBoolean? (text : List Char) : Option Toml :=
  if text = ['t', 'r', 'u', 'e'] then some (boolean true)
  else if text = ['f', 'a', 'l', 's', 'e'] then some (boolean false)
  else none

/-! ## Dates and times -/

/-- Read a number of a set width up to a limit. -/
def part? (width least greatest : Nat) (text : List Char) : Option (Nat × List Char) := do
  let digits := text.take width
  let value ← if digits.length = width then readDigits? digits else none
  if least ≤ value ∧ value ≤ greatest then some (value, text.drop width) else none

/-- The text after a date. -/
def dropDate? (text : List Char) : Option (List Char) := do
  let (year, text) ← part? 4 0 9999 text
  let text ← dropStart? ['-'] text
  let (month, text) ← part? 2 1 12 text
  let text ← dropStart? ['-'] text
  let (_, text) ← part? 2 1 (Calendar.daysInMonth year month) text
  some text

/-- The text after a time of day.  Seconds may be missing, and with them the
fraction. -/
def dropTime? (text : List Char) : Option (List Char) := do
  let (_, text) ← part? 2 0 23 text
  let text ← dropStart? [':'] text
  let (_, text) ← part? 2 0 59 text
  match text with
  | ':' :: text => do
      let (_, text) ← part? 2 0 60 text
      match text with
      | '.' :: text =>
          if (text.takeWhile isDigit).isEmpty then none else some (text.dropWhile isDigit)
      | _ => some text
  | _ => some text

/-- Whether a text is an offset from universal time, or empty. -/
def isOffset (text : List Char) : Bool :=
  match text with
  | [] => true
  | ['Z'] | ['z'] => true
  | sign :: text =>
      (sign == '+' || sign == '-') && Option.isSome (do
        let (_, text) ← part? 2 0 23 text
        let text ← dropStart? [':'] text
        let (_, text) ← part? 2 0 59 text
        if text.isEmpty then some () else none)

/-- Whether a text is a date, a time, or a date with a time and an offset. -/
def isDatetime (text : List Char) : Bool :=
  match dropDate? text with
  | some [] => true
  | some (separator :: rest) =>
      (separator == 'T' || separator == 't' || separator == ' ') &&
        ((dropTime? rest).map isOffset).getD false
  | none => (dropTime? text).map (·.isEmpty) == some true

/-- Read a number, a date or a time. -/
def numberOrDatetime? (text : List Char) : Option Toml :=
  let (negative, unsigned) := splitSign text
  let rest := unsigned.dropWhile isDigit
  if rest.head? = some '-' ∨ rest.head? = some ':' ∨ rest.contains ' ' then
    if isDatetime text then some datetime else none
  else if rest.any (".eE".toList.contains ·) then
    decimalFloat? negative unsigned
  else
    decimalInteger? negative unsigned

/-- Read a value that is written as one run of characters. -/
def ofRun? (text : List Char) : Option Toml :=
  (namedBoolean? text).or <| (namedFloat? text).or <|
    (basedInteger? text).or <| numberOrDatetime? text

/-- A character that a run may have. -/
def isRunCharacter (character : Char) : Bool :=
  !("=,[]\x7b\x7d \t#\r\n".toList.contains character)

/-- Whether a run goes on at the first character that is no blank.  A quote begins a
string there. -/
def goesOn (text : List Char) : Bool :=
  match text.dropWhile isGap with
  | '"' :: _ | '\'' :: _ | [] => false
  | character :: _ => isRunCharacter character

/-- The run at the front of a text, and the text after it. -/
def splitRun : List Char → List Char × List Char
  | [] => ([], [])
  | character :: rest =>
      if isRunCharacter character || (isGap character && goesOn rest) then
        let (run, rest) := splitRun rest
        (character :: run, rest)
      else
        ([], character :: rest)

end IncludeGate.Toml
