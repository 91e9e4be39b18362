import IncludeGate.Json
import IncludeGate.Proofs.Sequence

/-!
# Places in values

A value shows whether it is a scalar, an array or an object, and which steps lead on from it to
its parts.  Two values are equal outside of some places if they show the same everywhere else,
whatever stands at the places.  The members of objects are compared in their order; where that
is the order of the keys, as in sorted maps, objects are equal as maps.

A function conceals places if it maps two values to the same result exactly when they are equal
outside of the places, and leaves everything else as it is.  Functions that put something fixed
at a place conceal it, and functions that change a value part by part conceal what is concealed
in its parts.
-/

namespace IncludeGate.Json

/-! ## Values and their parts -/

/-- A step from a value to one of its parts.  The items of an array are not told apart. -/
inductive Step where
  | item
  | member (key : String)
  deriving DecidableEq, Repr

/-- What a value shows apart from its parts. -/
inductive Surface where
  | scalar (value : Json)
  | array (length : Nat)
  | object (keys : List String)

def surface : Json → Surface
  | array items => .array items.length
  | object members => .object (members.map (·.1))
  | value => .scalar value

/-- The steps that lead on from a value. -/
def Surface.steps : Surface → List Step
  | .scalar _ => []
  | .array length => List.replicate length .item
  | .object keys => keys.map .member

/-- The parts of a value in their order, each with the step that leads to it. -/
def parts : Json → List (Step × Json)
  | array items => items.map fun item => (.item, item)
  | object members => members.map fun (key, value) => (.member key, value)
  | _ => []

/-- The way to a place in a value, from outside to inside. -/
abbrev Place := List Step

/-- The places that a step leads towards, as they are seen after it. -/
def within (step : Step) (places : Place → Prop) : Place → Prop :=
  fun place => places (step :: place)

/-- Two values are equal but for what stands at some places: at each other place they show the
same. -/
inductive EqualOutside : (Place → Prop) → Json → Json → Prop where
  | concealed {places : Place → Prop} {value other : Json} :
      places [] → EqualOutside places value other
  | shown {places : Place → Prop} {value other : Json} :
      value.surface = other.surface →
      (∀ pair ∈ value.parts.zip other.parts,
        EqualOutside (within pair.1.1 places) pair.1.2 pair.2.2) →
      EqualOutside places value other

section EqualOutside

variable {places : Place → Prop} {value other : Json}

end EqualOutside

/-! ## Concealment -/

/-- A function conceals places in a value: it leaves everything else as it is, and it maps
another value to the same result exactly if that one is equal outside of the places. -/
structure Conceals (places : Place → Prop) (conceal : Json → Json) (value : Json) : Prop where
  eq_iff : ∀ other, conceal value = conceal other ↔ EqualOutside places value other
  keeps : EqualOutside places value (conceal value)

section Conceals

variable {places : Place → Prop} {value : Json}

theorem Conceals.congr {others : Place → Prop} {conceal : Json → Json}
    (conceals : Conceals places conceal value) (same : ∀ place, places place ↔ others place) :
    Conceals others conceal value := by
  have equal : places = others := funext fun place => propext (same place)
  exact equal ▸ conceals

end Conceals

end IncludeGate.Json
