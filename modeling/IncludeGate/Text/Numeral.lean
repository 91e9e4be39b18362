/-!
# Unsigned numerals

Decimal numerals as a compiler prints them and as a strict reader takes them:
ASCII digits only, any number of leading zeros, an optional plus sign where the
reader allows one, and a limit that the value has to stay below.
-/

namespace IncludeGate.Text

/-- An ASCII decimal digit. -/
def isDigit (character : Char) : Bool :=
  '0'.toNat ≤ character.toNat && character.toNat ≤ '9'.toNat

/-- The value of an ASCII decimal digit. -/
def digitValue (character : Char) : Nat :=
  character.toNat - '0'.toNat

/-- The value of a string of decimal digits, most significant first. -/
def digitsValue (digits : List Char) : Nat :=
  digits.foldl (fun value digit => value * 10 + digitValue digit) 0

/-- The value of a nonempty string of decimal digits and nothing else. -/
def readDigits? (text : List Char) : Option Nat :=
  if !text.isEmpty && text.all isDigit then some (digitsValue text) else none

/-- The value of digits, with or without a plus sign before them, when it stays
below the limit. -/
def readUnsigned? (limit : Nat) (text : List Char) : Option Nat :=
  let digits := match text with
    | '+' :: rest => rest
    | _ => text
  (readDigits? digits).filter (· < limit)

/-- A 32-bit numeral: digits, with or without a plus sign. -/
def readUInt32? (text : List Char) : Option UInt32 :=
  (readUnsigned? UInt32.size text).map UInt32.ofNat

/-- An 8-bit numeral: digits, with or without a plus sign. -/
def readUInt8? (text : List Char) : Option UInt8 :=
  (readUnsigned? UInt8.size text).map UInt8.ofNat

/-- The digit of a value below ten. -/
def digitOf (value : Nat) : Char :=
  Char.ofNat ('0'.toNat + value)

/-- The last `width` decimal digits of a number, with zeros in front. -/
def fixedDigits : Nat → Nat → List Char
  | 0, _ => []
  | width + 1, value => fixedDigits width (value / 10) ++ [digitOf (value % 10)]

end IncludeGate.Text
