import IncludeGate.Binary64

/-!
# TOML values

A value as a TOML document describes it.  The members of a table stand in the
increasing order of their keys, each once.  What a date or a time says does not
matter here, so all of them are one value.
-/

namespace IncludeGate

/-- A TOML value. -/
inductive Toml where
  | string (value : String)
  | integer (value : Int)
  | float (value : Binary64)
  | boolean (value : Bool)
  /-- A date, a time or both. -/
  | datetime
  /-- A number too large for every type of number, or an integer whose digits make
  no number. -/
  | unrepresentable
  | array (items : List Toml)
  | table (members : List (String × Toml))
  deriving Inhabited, Repr

end IncludeGate
