import IncludeGate.Text.Pieces

/-!
# Paths as texts

A path is a text whose components stand between slashes.  Everything here is
lexical: no file is looked at, so `..` takes away the component before it even
where that one is a link.
-/

namespace IncludeGate.Path

open Text

/-- Whether a path begins at the root. -/
def isAbsolute (path : String) : Bool :=
  path.toList.head? == some '/'

/-- A path inside a directory.  An absolute path stays as it is; otherwise one
slash stands between the two, unless the directory is empty or ends with one. -/
def join (directory path : String) : String :=
  if isAbsolute path then path
  else if directory.isEmpty ∨ directory.toList.getLast? = some '/' then directory ++ path
  else directory ++ "/" ++ path

/-- The component that stands for the directory itself. -/
def currentName : List Char := ['.']

/-- The component that stands for the directory above. -/
def parentName : List Char := ['.', '.']

/-- The components of a path that lead somewhere. -/
def segments (path : List Char) : List (List Char) :=
  (pieces (· == '/') path).filter fun segment => !segment.isEmpty && segment != currentName

/-- Follow one component, given those followed so far, the latest one first.  At
the root there is nothing above. -/
def followSegment (absolute : Bool) (taken : List (List Char)) (segment : List Char) :
    List (List Char) :=
  if segment = parentName then
    match taken with
    | [] => if absolute then [] else [parentName]
    | last :: before => if last = parentName then parentName :: taken else before
  else
    segment :: taken

/-- The components that are left when each `..` has taken away what it can. -/
def fold (absolute : Bool) (path : List (List Char)) : List (List Char) :=
  (path.foldl (followSegment absolute) []).reverse

/-- The shortest path that leads to the same place if there are no links. -/
def normalize (path : String) : String :=
  let absolute := isAbsolute path
  let folded := Text.join '/' (fold absolute (segments path.toList))
  String.ofList (if absolute then '/' :: folded else folded)

/-- A path without the empty and `.` components at its end, both read from the
end. -/
def trimBack : List Char → List Char
  | [] => []
  | '/' :: rest => trimBack rest
  | ['.'] => []
  | '.' :: '/' :: rest => trimBack rest
  | rest => rest

/-- The beginning of a path that is no ordinary component, and the text after
it. -/
def splitStart : List Char → List Char × List Char
  | '/' :: rest => (['/'], rest)
  | ['.'] => (['.'], [])
  | '.' :: '/' :: rest => (['.'], '/' :: rest)
  | text => ([], text)

/-- The path without its last component.  The root and the empty path have no
parent. -/
def parent? (path : String) : Option String :=
  let (start, rest) := splitStart path.toList
  match trimBack rest.reverse with
  | [] => if start = ['.'] then some "" else none
  | back => some (String.ofList (start ++ (trimBack (back.dropWhile (· != '/'))).reverse))

/-- A path and, one after another, the parents above it, at most as many as given. -/
def ancestors : Nat → String → List String
  | 0, _ => []
  | count + 1, path =>
      path :: match parent? path with
        | some parent => ancestors count parent
        | none => []

end IncludeGate.Path
