import IncludeGate.Text.Unprintable

/-!
# Quoted text

A text between double quotes for messages, so that a reader sees where it begins
and ends and which characters it has.  Quotes and backslashes are protected by a
backslash, some controls have a letter, and every other character without a shape
of its own is shown by its code point in hexadecimal digits.
-/

namespace IncludeGate.Text

/-- A code point in hexadecimal digits between braces. -/
def codePointText (character : Char) : List Char :=
  '\\' :: 'u' :: '\x7b' :: (Nat.toDigits 16 character.toNat ++ ['\x7d'])

/-- How a character is shown between quotes. -/
def quotedChar (character : Char) : List Char :=
  if character = '"' ∨ character = '\\' then ['\\', character]
  else if character = '\t' then ['\\', 't']
  else if character = '\r' then ['\\', 'r']
  else if character = '\n' then ['\\', 'n']
  else if character.toNat = 0 then ['\\', '0']
  else if isUnprintable character then codePointText character
  else [character]

/-- A text between quotes. -/
def quoted (text : List Char) : List Char :=
  '"' :: (text.flatMap quotedChar ++ ['"'])

end IncludeGate.Text
