import IncludeGate.Toml.Scalar
import IncludeGate.Toml.Table

/-!
# TOML documents

A document is read as TOML 1.1: inside arrays and inline tables line breaks and
comments may stand between any two parts but those of a dotted key, and a comma
may follow the last value.  Arrays and inline tables may be nested eighty deep, and
a dotted key may have eighty parts.  A byte order mark at the front is skipped.

Every call of a reader uses up a character, so the length of the text bounds the
number of calls.
-/

namespace IncludeGate.Toml

open Text

/-- How deep arrays and inline tables may be nested. -/
def maxDepth : Nat := 80

/-- How many parts a dotted key may have. -/
def maxKeys : Nat := 80

/-- The rest of a line without the comment at its front, if there is one. -/
def dropComment : List Char → List Char
  | '#' :: rest => rest.dropWhile isPlain
  | text => text

/-- The text after blanks, comments and line breaks. -/
def dropTrivia : Nat → List Char → List Char
  | 0, text => text
  | fuel + 1, text =>
      let rest := dropComment (text.dropWhile isGap)
      match dropLineBreak? rest with
      | some rest => dropTrivia fuel rest
      | none => rest

/-- The text after blanks, comments and line breaks. -/
def skip (text : List Char) : List Char :=
  dropTrivia (text.length + 1) text

/-- A character of a key without quotes. -/
def isBare (character : Char) : Bool :=
  isDigit character || ('a' ≤ character && character ≤ 'z') ||
    ('A' ≤ character && character ≤ 'Z') || character == '_' || character == '-'

/-- Read a key without dots. -/
def readKey? : List Char → Option (String × List Char)
  | '"' :: rest => readLineString? '"' rest
  | '\'' :: rest => readLineString? '\'' rest
  | text =>
      let key := text.takeWhile isBare
      if key.isEmpty then none else some (String.ofList key, text.dropWhile isBare)

/-- Read a key of at most the given number of parts, and the blanks after it. -/
def readParts? : Nat → List Char → Option (List String × List Char)
  | 0, _ => none
  | count + 1, text => do
      let (key, rest) ← readKey? (text.dropWhile isGap)
      match rest.dropWhile isGap with
      | '.' :: rest => do
          let (keys, rest) ← readParts? count rest
          some (key :: keys, rest)
      | rest => some ([key], rest)

/-- Read a key with or without dots, and the blanks after it. -/
def readKeys? : List Char → Option (List String × List Char) :=
  readParts? maxKeys

/-- Read a key and the equals sign after it, given what may be skipped around the
sign. -/
def readAssignedKeys? (skipped : List Char → List Char) (text : List Char) :
    Option (List String × List Char) := do
  let (keys, rest) ← readKeys? text
  let rest ← dropStart? ['='] (skipped rest)
  some (keys, skipped rest)

mutual

/-- Read a value inside the given number of further levels. -/
def readValue? : Nat → Nat → List Char → Option (Toml × List Char)
  | 0, _, _ => none
  | _ + 1, _, [] => none
  | fuel + 1, depth, character :: rest =>
      if character = '"' ∨ character = '\'' then do
        let (text, rest) ← readString? character rest
        some (string text, rest)
      else if character = '[' then
        match depth with
        | 0 => none
        | depth + 1 => do
            let (items, rest) ← readItems? fuel depth (skip rest)
            some (array items, rest)
      else if character = '\x7b' then
        match depth with
        | 0 => none
        | depth + 1 => do
            let (members, rest) ← readMembers? fuel depth [] (skip rest)
            some (table (closeMembers members), rest)
      else do
        let (run, rest) := splitRun (character :: rest)
        let value ← ofRun? run
        some (value, rest)

/-- Read the items of an array that are left, and its closing bracket. -/
def readItems? : Nat → Nat → List Char → Option (List Toml × List Char)
  | 0, _, _ => none
  | _ + 1, _, ']' :: rest => some ([], rest)
  | fuel + 1, depth, text => do
      let (item, rest) ← readValue? fuel depth text
      match skip rest with
      | ',' :: rest =>
          let (items, rest) ← readItems? fuel depth (skip rest)
          some (item :: items, rest)
      | ']' :: rest => some ([item], rest)
      | _ => none

/-- Read the members of an inline table that are left, and its closing brace,
given those before. -/
def readMembers? : Nat → Nat → Members → List Char → Option (Members × List Char)
  | 0, _, _, _ => none
  | fuel + 1, depth, members, text =>
      match text with
      | '\x7d' :: rest => some (members, rest)
      | _ => do
          let (keys, rest) ← readAssignedKeys? skip text
          let (value, rest) ← readValue? fuel depth rest
          let members ← addValue value keys members
          match skip rest with
          | ',' :: rest => readMembers? fuel depth members (skip rest)
          | '\x7d' :: rest => some (members, rest)
          | _ => none

end

/-- The document read so far: its tables, and the header that is in force. -/
structure Draft where
  root : Members
  header : List String

/-- Read a header or an assignment at the front of a text and enter it. -/
def readStatement? (draft : Draft) : List Char → Option (Draft × List Char)
  | '[' :: '[' :: rest => do
      let (keys, rest) ← readKeys? rest
      let rest ← dropStart? [']', ']'] rest
      let root ← openElement keys draft.root
      some (⟨root, keys⟩, rest)
  | '[' :: rest => do
      let (keys, rest) ← readKeys? rest
      let rest ← dropStart? [']'] rest
      let root ← openTable keys draft.root
      some (⟨root, keys⟩, rest)
  | text => do
      let (keys, rest) ← readAssignedKeys? (List.dropWhile isGap) text
      let (value, rest) ← readValue? (2 * rest.length + 2) maxDepth rest
      let root ← addValueAt draft.header keys value draft.root
      some (⟨root, draft.header⟩, rest)

/-- Read the statements that are left.  Only a comment may follow a statement on
its line. -/
def readStatements? : Nat → Draft → List Char → Option Members
  | 0, _, _ => none
  | fuel + 1, draft, text =>
      match skip text with
      | [] => some draft.root
      | text => do
          let (draft, rest) ← readStatement? draft text
          match dropComment (rest.dropWhile isGap) with
          | [] => some draft.root
          | rest => do
              let rest ← dropLineBreak? rest
              readStatements? fuel draft rest

/-- Read a document as the members of its outermost table. -/
def parse? (text : List Char) : Option (List (String × Toml)) := do
  let text := match text with
    | '\uFEFF' :: rest => rest
    | _ => text
  let members ← readStatements? (text.length + 1) ⟨[], []⟩ text
  some (closeMembers members)

end IncludeGate.Toml
