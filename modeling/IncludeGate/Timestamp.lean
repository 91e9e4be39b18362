import IncludeGate.Text.Numeral
import IncludeGate.Text.Search

/-!
# Timestamps

Points in time as RFC 3339 writes them: a date of the proleptic Gregorian
calendar in the years 0 to 9999, a time of day down to nanoseconds, and an offset
from UTC in whole minutes, less than a day either way.  The type admits only such
values, so every timestamp can be written.

The reader takes any one ASCII character between date and time, ignores fraction
digits after the ninth, and reads a leap second, which has to be the last second
of a month in UTC, as the last nanosecond before it.
-/

namespace IncludeGate

open Text

namespace Calendar

/-- Whether a year of the Gregorian calendar has a 29th of February. -/
def isLeapYear (year : Nat) : Bool :=
  year % 4 == 0 && (year % 100 != 0 || year % 400 == 0)

/-- The number of days of a month. -/
def daysInMonth (year month : Nat) : Nat :=
  if month = 2 then
    if isLeapYear year then 29 else 28
  else if month = 4 ∨ month = 6 ∨ month = 9 ∨ month = 11 then 30
  else 31

end Calendar

open Calendar

/-- A date, a time of day, and the offset from UTC that they are meant in. -/
structure Timestamp where
  year : Nat
  month : Nat
  day : Nat
  hour : Nat
  minute : Nat
  second : Nat
  nanosecond : Nat
  /-- Minutes ahead of UTC. -/
  offset : Int
  year_le : year ≤ 9999
  month_mem : 1 ≤ month ∧ month ≤ 12
  day_mem : 1 ≤ day ∧ day ≤ daysInMonth year month
  hour_lt : hour < 24
  minute_lt : minute < 60
  second_lt : second < 60
  nanosecond_lt : nanosecond < 1000000000
  offset_mem : -1440 < offset ∧ offset < 1440
  deriving DecidableEq, Repr

namespace Timestamp

/-- The timestamp with the given parts, if there is one. -/
def ofParts? (year month day hour minute second nanosecond : Nat) (offset : Int) :
    Option Timestamp :=
  if valid : year ≤ 9999 ∧ (1 ≤ month ∧ month ≤ 12) ∧
      (1 ≤ day ∧ day ≤ daysInMonth year month) ∧ hour < 24 ∧ minute < 60 ∧ second < 60 ∧
      nanosecond < 1000000000 ∧ (-1440 < offset ∧ offset < 1440) then
    some ⟨year, month, day, hour, minute, second, nanosecond, offset, valid.1, valid.2.1,
      valid.2.2.1, valid.2.2.2.1, valid.2.2.2.2.1, valid.2.2.2.2.2.1, valid.2.2.2.2.2.2.1,
      valid.2.2.2.2.2.2.2⟩
  else
    none

/-- The beginning of 1970 in UTC. -/
def epoch : Timestamp :=
  ⟨1970, 1, 1, 0, 0, 0, 0, 0, by decide, by decide, by decide, by decide, by decide,
    by decide, by decide, by decide⟩

/-- The digits of a fraction of a second, without the zeros at its end. -/
def fractionDigits (nanosecond : Nat) : List Char :=
  ((fixedDigits 9 nanosecond).reverse.dropWhile (· == '0')).reverse

/-- The offset as it is written: `Z` for none. -/
def offsetText (offset : Int) : List Char :=
  if offset = 0 then
    ['Z']
  else
    let sign := if offset < 0 then '-' else '+'
    let minutes := offset.natAbs
    sign :: fixedDigits 2 (minutes / 60) ++ ':' :: fixedDigits 2 (minutes % 60)

/-- The text of a timestamp.  The fraction is missing when it is zero. -/
def text (timestamp : Timestamp) : List Char :=
  let fraction := fractionDigits timestamp.nanosecond
  fixedDigits 4 timestamp.year ++ '-' :: fixedDigits 2 timestamp.month ++
    '-' :: fixedDigits 2 timestamp.day ++ 'T' :: fixedDigits 2 timestamp.hour ++
    ':' :: fixedDigits 2 timestamp.minute ++ ':' :: fixedDigits 2 timestamp.second ++
    (if fraction.isEmpty then [] else '.' :: fraction) ++ offsetText timestamp.offset

/-- Read exactly the given number of digits. -/
def takeDigits? (width : Nat) (text : List Char) : Option (Nat × List Char) :=
  let digits := text.take width
  if digits.length = width then
    (readDigits? digits).map fun value => (value, text.drop width)
  else
    none

/-- The nanoseconds that fraction digits stand for; those after the ninth are
ignored. -/
def fractionValue (digits : List Char) : Nat :=
  digitsValue ((digits ++ List.replicate 9 '0').take 9)

/-- Read a fraction, if there is one.  A point needs a digit after it. -/
def readFraction? : List Char → Option (Nat × List Char)
  | '.' :: rest =>
      let digits := rest.takeWhile isDigit
      if digits.isEmpty then none
      else some (fractionValue digits, rest.dropWhile isDigit)
  | text => some (0, text)

/-- Read an offset, which has to end the text. -/
def readOffset? (text : List Char) : Option Int := do
  if text = ['Z'] ∨ text = ['z'] then
    return 0
  let (sign, rest) ← match text with
    | '+' :: rest => some ((1 : Int), rest)
    | '-' :: rest => some ((-1 : Int), rest)
    | _ => none
  let (hours, rest) ← takeDigits? 2 rest
  let rest ← dropStart? [':'] rest
  let (minutes, rest) ← takeDigits? 2 rest
  if rest.isEmpty ∧ hours < 24 ∧ minutes < 60 then
    some (sign * (hours * 60 + minutes : Nat))
  else
    none

/-- Whether a minute of local time is, in UTC, the last one of a month. -/
def endsMonth (timestamp : Timestamp) : Bool :=
  let minutes : Int := timestamp.hour * 60 + timestamp.minute - timestamp.offset
  let lastDay := daysInMonth timestamp.year timestamp.month
  minutes % 1440 == 1439 &&
    (if minutes < 0 then timestamp.day == 1
      else if minutes < 1440 then timestamp.day == lastDay
      else timestamp.day + 1 == lastDay)

/-- Read a timestamp. -/
def parse? (text : List Char) : Option Timestamp := do
  let (year, text) ← takeDigits? 4 text
  let text ← dropStart? ['-'] text
  let (month, text) ← takeDigits? 2 text
  let text ← dropStart? ['-'] text
  let (day, text) ← takeDigits? 2 text
  let text ← match text with
    | separator :: rest =>
        if separator.toNat < 0x80 then some rest else none
    | [] => none
  let (hour, text) ← takeDigits? 2 text
  let text ← dropStart? [':'] text
  let (minute, text) ← takeDigits? 2 text
  let text ← dropStart? [':'] text
  let (second, text) ← takeDigits? 2 text
  let (nanosecond, text) ← readFraction? text
  let offset ← readOffset? text
  if second = 60 then
    (ofParts? year month day hour minute 59 999999999 offset).filter endsMonth
  else
    ofParts? year month day hour minute second nanosecond offset

end Timestamp

end IncludeGate
