import IncludeGate.Binary64

/-!
# JSON values

A value as a JSON text describes it.  Objects keep their members in the order in
which they are written; whole numbers that fit into 64 bits are kept apart from
other numbers.
-/

namespace IncludeGate

/-- A JSON value. -/
inductive Json where
  | null
  | bool (value : Bool)
  | integer (value : Int)
  | float (value : Binary64)
  | string (value : String)
  | array (items : List Json)
  | object (members : List (String × Json))
  deriving Inhabited, Repr

namespace Json

/-- The value of the first member with a key. -/
def member? (key : String) (members : List (String × Json)) : Option Json :=
  (members.find? (·.1 = key)).map (·.2)

end Json

end IncludeGate
