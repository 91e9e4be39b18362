import IncludeGate.Json

/-!
# Writing JSON

`pretty` puts each item and each member on a line of its own, indented by two
spaces a level, and writes empty arrays and objects without a line break;
`compact` writes no blank at all.  Of the characters of a string only the double
quote, the backslash and the control characters are escaped.
-/

namespace IncludeGate.Json

/-- A hexadecimal digit in lower case. -/
def hexDigit (value : Nat) : Char :=
  if value < 10 then Char.ofNat ('0'.toNat + value) else Char.ofNat ('a'.toNat + (value - 10))

/-- One character of a string literal. -/
def escapeChar (character : Char) : List Char :=
  if character = '"' then ['\\', '"']
  else if character = '\\' then ['\\', '\\']
  else if character.toNat = 0x08 then ['\\', 'b']
  else if character.toNat = 0x0C then ['\\', 'f']
  else if character = '\n' then ['\\', 'n']
  else if character = '\r' then ['\\', 'r']
  else if character = '\t' then ['\\', 't']
  else if character.toNat < 0x20 then
    ['\\', 'u', '0', '0', hexDigit (character.toNat / 16), hexDigit (character.toNat % 16)]
  else [character]

/-- A string literal. -/
def quoted (text : String) : List Char :=
  '"' :: (text.toList.flatMap escapeChar ++ ['"'])

/-- Numbers are written positionally unless they are very large or very small.  Of
two equally near decimals the one with the even last digit is taken. -/
def floatText : Binary64 → List Char
  | .notANumber | .infinite _ => "null".toList
  | .finite negative mantissa exponent =>
      let decimal := Binary64.decimal .toEven mantissa exponent
      let body :=
        if -5 < decimal.point ∧ decimal.point ≤ 16 then decimal.positional
        else decimal.scientific
      if negative then '-' :: body else body

/-- A value that has no parts. -/
def scalarText : Json → List Char
  | bool true => "true".toList
  | bool false => "false".toList
  | integer value => (toString value).toList
  | float value => floatText value
  | string value => quoted value
  | _ => "null".toList

mutual

/-- A value on one line without blanks. -/
def compact : Json → List Char
  | array [] => ['[', ']']
  | array (first :: rest) => '[' :: compact first ++ compactItems rest
  | object [] => ['\x7b', '\x7d']
  | object ((key, value) :: rest) =>
      '\x7b' :: quoted key ++ ':' :: compact value ++ compactMembers rest
  | value => scalarText value

/-- The items after the first one and the closing bracket. -/
def compactItems : List Json → List Char
  | [] => [']']
  | item :: rest => ',' :: compact item ++ compactItems rest

/-- The members after the first one and the closing brace. -/
def compactMembers : List (String × Json) → List Char
  | [] => ['\x7d']
  | (key, value) :: rest =>
      ',' :: quoted key ++ ':' :: compact value ++ compactMembers rest

end

/-- A line break and the indentation of a level. -/
def newLine (level : Nat) : List Char :=
  '\n' :: List.replicate (2 * level) ' '

mutual

/-- A value at a level of indentation. -/
def prettyAt (level : Nat) : Json → List Char
  | array [] => ['[', ']']
  | array (first :: rest) =>
      '[' :: newLine (level + 1) ++ prettyAt (level + 1) first ++ prettyItems level rest
  | object [] => ['\x7b', '\x7d']
  | object ((key, value) :: rest) =>
      '\x7b' :: newLine (level + 1) ++ quoted key ++ ':' :: ' ' ::
        prettyAt (level + 1) value ++ prettyMembers level rest
  | value => scalarText value

/-- The items after the first one and the closing bracket. -/
def prettyItems (level : Nat) : List Json → List Char
  | [] => newLine level ++ [']']
  | item :: rest =>
      ',' :: newLine (level + 1) ++ prettyAt (level + 1) item ++ prettyItems level rest

/-- The members after the first one and the closing brace. -/
def prettyMembers (level : Nat) : List (String × Json) → List Char
  | [] => newLine level ++ ['\x7d']
  | (key, value) :: rest =>
      ',' :: newLine (level + 1) ++ quoted key ++ ':' :: ' ' ::
        prettyAt (level + 1) value ++ prettyMembers level rest

end

/-- A value on several lines. -/
def pretty (value : Json) : List Char :=
  prettyAt 0 value

end IncludeGate.Json
