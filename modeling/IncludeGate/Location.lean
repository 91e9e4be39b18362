/-!
# Places in source files
-/

namespace IncludeGate

/-- A place in a source file as a compiler reports it. -/
structure Location where
  /-- The file, as the compiler spells it. -/
  path : String
  /-- The line, counted from 1. -/
  line : UInt32
  /-- The column, counted from 1, or 0 where the compiler names none. -/
  column : UInt32
  deriving DecidableEq, Repr

end IncludeGate
