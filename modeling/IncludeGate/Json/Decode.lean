import IncludeGate.Json.Writer
import IncludeGate.Text.Quoted

/-!
# Decoding JSON values

A record may be given as an object or as an array of its fields in the order of
their declaration.  In an object, unknown members are ignored; of several faults
the first one counts, in the order in which the members are written, and a
missing field counts after all of them.
-/

namespace IncludeGate.Json

/-- Why a value cannot be decoded. -/
inductive DecodeError where
  | missingField (field : String)
  | unknownVariant (name : String) (known : List String)
  /-- A value of the wrong kind. -/
  | invalidType (found expected : String)
  /-- A value of the right kind that is out of range. -/
  | invalidValue (found expected : String)
  /-- Something else, for which no text is fixed. -/
  | malformed
  deriving DecidableEq, Repr

/-- Names between backquotes, separated by commas. -/
def nameList (names : List String) : String :=
  ", ".intercalate (names.map fun name => s!"`{name}`")

/-- The text shown for a fault, where one is fixed. -/
def DecodeError.message? : DecodeError → Option String
  | missingField field => some s!"missing field `{field}`"
  | unknownVariant name known =>
      some s!"unknown variant `{name}`, expected one of {nameList known}"
  | invalidType found expected => some s!"invalid type: {found}, expected {expected}"
  | invalidValue found expected => some s!"invalid value: {found}, expected {expected}"
  | malformed => none

/-- A value as a message names it: a scalar in full, a container by its kind. -/
def describe : Json → String
  | null => "null"
  | bool value => s!"boolean `{value}`"
  | integer value => s!"integer `{value}`"
  | float value => s!"floating point `{String.ofList (floatText value)}`"
  | string value => s!"string {String.ofList (Text.quoted value.toList)}"
  | array _ => "sequence"
  | object _ => "map"

/-- The result of decoding. -/
abbrev Decoded (α : Type) := Except DecodeError α

/-- Decode a string. -/
def asString : Json → Decoded String
  | string value => .ok value
  | other => .error (.invalidType (describe other) "a string")

/-- Decode a whole number of 32 bits. -/
def asUInt32 : Json → Decoded UInt32
  | integer value =>
      if 0 ≤ value ∧ value < UInt32.size then .ok (UInt32.ofNat value.toNat)
      else .error (.invalidValue (describe (integer value)) "u32")
  | other => .error (.invalidType (describe other) "u32")

/-- Decode an array, item by item. -/
def asList {α : Type} (item : Json → Decoded α) :
    Json → Decoded (List α)
  | array items => items.mapM item
  | other => .error (.invalidType (describe other) "a sequence")

/-- Decode a value that may be null. -/
def asOption {α : Type} (decode : Json → Decoded α) : Json → Decoded (Option α)
  | null => .ok none
  | value => (decode value).map some

/-- Decode the name of one of several variants.  The name may also be the only
key of an object, with null as its value. -/
def asVariant {α : Type} (known : List (String × α)) :
    Json → Decoded α
  | string name => variant name
  | object [(name, value)] => do
      let found ← variant name
      match value with
      | null => .ok found
      | other => .error (.invalidType (describe other) "unit")
  | object members =>
      .error (.invalidValue (describe (object members)) "map with a single key")
  | other => .error (.invalidType (describe other) "string or map")
where
  /-- Look a name up. -/
  variant (name : String) : Decoded α :=
    match known.find? (·.1 = name) with
    | some (_, value) => .ok value
    | none => .error (.unknownVariant name (known.map (·.1)))

/-- A field of a record: its name and the test that its value has to pass. -/
structure Field where
  name : String
  check : Json → Decoded Unit

/-- The field with a name and a decoder. -/
def Field.of {α : Type} (name : String) (decode : Json → Decoded α) : Field :=
  ⟨name, fun value => (decode value).map fun _ => ()⟩

/-- Test the members of a record in order. -/
def checkMembers (fields : List Field) : List (String × Json) → Decoded Unit
  | [] => .ok ()
  | (key, value) :: rest =>
      match fields.find? (·.name = key) with
      | some field => do
          field.check value
          checkMembers fields rest
      | none => checkMembers fields rest

/-- The members of a record, tested.  An array must hold at least the required
fields and no more values than there are fields. -/
def asRecord (expected : String) (fields : List Field)
    (required : Nat) : Json → Decoded (List (String × Json))
  | object members => do
      checkMembers fields members
      .ok members
  | array items => do
      let members := (fields.map (·.name)).zip items
      checkMembers fields members
      if items.length < required ∨ fields.length < items.length then .error .malformed
      else .ok members
  | other => .error (.invalidType (describe other) expected)

/-- The value of a field that has to be there. -/
def field {α : Type} (name : String) (decode : Json → Decoded α)
    (members : List (String × Json)) : Decoded α :=
  match member? name members with
  | some value => decode value
  | none => .error (.missingField name)

/-- The value of a field, or another value if it is missing. -/
def fieldD {α : Type} (name : String) (default : α) (decode : Json → Decoded α)
    (members : List (String × Json)) : Decoded α :=
  match member? name members with
  | some value => decode value
  | none => .ok default

end IncludeGate.Json
