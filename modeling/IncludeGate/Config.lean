import IncludeGate.Text.Quoted
import IncludeGate.Toml.Document

/-!
# The configuration file

The configuration is a TOML table with eight optional fields.  Unknown fields are
refused, here and inside the entries of `allowed`, because a misspelt rule would
otherwise be no rule at all.  Of several faults the first one counts, in the order
of the keys, and a field that a table lacks comes after the faults of its members.
-/

namespace IncludeGate

/-- Exceptions for a scope, as the configuration file gives them. -/
structure AllowedEntry where
  scope : String
  exceptions : List String
  deriving DecidableEq, Repr

/-- The contents of a configuration file. -/
structure Config where
  schema : Option String
  /-- Directories to scan. -/
  directories : List String
  forbidden : List String
  allowed : List AllowedEntry
  /-- Names of directories to leave out. -/
  ignore : Option (List String)
  extensions : List String
  compiler : Option String
  compilerArguments : List String
  deriving DecidableEq, Repr

/-- Why a document is no configuration. -/
inductive ModelError where
  | unknownField (name : String) (known : List String)
  | missingField (name : String)
  /-- A value of the wrong kind. -/
  | invalidType (found expected : String)
  /-- Something else, for which no text is fixed. -/
  | malformed
  deriving DecidableEq, Repr

namespace ModelError

/-- The names that a field may have, as a message lists them. -/
def choice : List String → String
  | [first, second] => s!"`{first}` or `{second}`"
  | names => "one of " ++ ", ".intercalate (names.map fun name => s!"`{name}`")

/-- The text shown for a fault, where one is fixed. -/
def message? : ModelError → Option String
  | unknownField name known => some s!"unknown field `{name}`, expected {choice known}"
  | missingField name => some s!"missing field `{name}`"
  | invalidType found expected => some s!"invalid type: {found}, expected {expected}"
  | malformed => none

end ModelError

namespace Config

/-- The configuration that sets nothing. -/
def empty : Config := ⟨none, [], [], [], none, [], none, []⟩

/-- The result of reading a value of the document. -/
abbrev Decoded (α : Type) := Except ModelError α

/-- An integer as a message names it.  Numbers that do not fit into 64 bits are
marked by the width that they need. -/
def describeInteger (value : Int) : String :=
  if -(Nat.pow 2 63 : Int) ≤ value ∧ value < Nat.pow 2 64 then s!"integer `{value}`"
  else if value < Nat.pow 2 127 then s!"integer `{value}` as i128"
  else s!"integer `{value}` as u128"

/-- A floating-point number as a message names it.  Of two equally near decimals the
greater one is taken. -/
def floatText : Binary64 → String
  | .notANumber => "NaN"
  | .infinite false => "inf"
  | .infinite true => "-inf"
  | .finite negative mantissa exponent =>
      let digits := String.ofList (Binary64.decimal .toGreater mantissa exponent).positional
      if negative then "-" ++ digits else digits

/-- The fault of a value that is not of the expected kind.  A scalar is named in
full, a container by its kind; a date counts as a container. -/
def mismatch (expected : String) : Toml → ModelError
  | .string value => .invalidType s!"string {String.ofList (Text.quoted value.toList)}" expected
  | .integer value => .invalidType (describeInteger value) expected
  | .float value => .invalidType s!"floating point `{floatText value}`" expected
  | .boolean value => .invalidType s!"boolean `{value}`" expected
  | .datetime | .table _ => .invalidType "map" expected
  | .array _ => .invalidType "sequence" expected
  | .unrepresentable => .malformed

/-- Read a string. -/
def asString : Toml → Decoded String
  | .string value => .ok value
  | other => .error (mismatch "a string" other)

/-- Read an array, item by item. -/
def asList {α : Type} (item : Toml → Decoded α) : Toml → Decoded (List α)
  | .array items => items.mapM item
  | other => .error (mismatch "a sequence" other)

/-- Read an array of strings. -/
def asStrings : Toml → Decoded (List String) :=
  asList asString

/-- A field: its name and the test that its value has to pass. -/
structure Field where
  name : String
  check : Toml → Decoded Unit

/-- The field with a name and a reader. -/
def Field.of {α : Type} (name : String) (decode : Toml → Decoded α) : Field :=
  ⟨name, fun value => (decode value).map fun _ => ()⟩

/-- Test the members of a table in order.  There may be no other fields. -/
def checkMembers (fields : List Field) : List (String × Toml) → Decoded Unit
  | [] => .ok ()
  | (key, value) :: rest =>
      match fields.find? (·.name = key) with
      | some field => do
          field.check value
          checkMembers fields rest
      | none => .error (.unknownField key (fields.map (·.name)))

/-- The value of a field that may be missing. -/
def field? {α : Type} (name : String) (decode : Toml → Decoded α)
    (members : List (String × Toml)) : Decoded (Option α) :=
  match members.find? (·.1 = name) with
  | some (_, value) => (decode value).map some
  | none => .ok none

/-- The value of a field that has to be there. -/
def field {α : Type} (name : String) (decode : Toml → Decoded α)
    (members : List (String × Toml)) : Decoded α := do
  match ← field? name decode members with
  | some value => .ok value
  | none => .error (.missingField name)

/-- The fields of an entry of `allowed`. -/
def entryFields : List Field :=
  [.of "scope" asString, .of "exceptions" asStrings]

/-- The key under which a date counts as a container. -/
def datetimeKey : String := "$__toml_private_datetime"

/-- Read an entry of `allowed`: a table, or an array of a scope and its
exceptions, whose further items do not matter. -/
def asEntry : Toml → Decoded AllowedEntry
  | .table members => do
      checkMembers entryFields members
      let scope ← field "scope" asString members
      let exceptions ← field "exceptions" asStrings members
      return ⟨scope, exceptions⟩
  | .datetime => .error (.unknownField datetimeKey (entryFields.map (·.name)))
  | .array (scope :: exceptions :: _) => do
      let scope ← asString scope
      let exceptions ← asStrings exceptions
      return ⟨scope, exceptions⟩
  | .array [scope] => do
      let _ ← asString scope
      .error .malformed
  | .array [] => .error .malformed
  | other => .error (mismatch "struct AllowedEntry" other)

/-- The fields of a configuration. -/
def fields : List Field :=
  [.of "schema" asString, .of "dirs" asStrings, .of "forbidden" asStrings,
    .of "allowed" (asList asEntry), .of "ignore" asStrings, .of "file_extensions" asStrings,
    .of "compiler" asString, .of "compiler_args" asStrings]

/-- Read a configuration from the members of a document. -/
def ofMembers (members : List (String × Toml)) : Decoded Config := do
  checkMembers fields members
  let schema ← field? "schema" asString members
  let directories ← field? "dirs" asStrings members
  let forbidden ← field? "forbidden" asStrings members
  let allowed ← field? "allowed" (asList asEntry) members
  let ignore ← field? "ignore" asStrings members
  let extensions ← field? "file_extensions" asStrings members
  let compiler ← field? "compiler" asString members
  let compilerArguments ← field? "compiler_args" asStrings members
  return ⟨schema, directories.getD [], forbidden.getD [], allowed.getD [], ignore,
    extensions.getD [], compiler, compilerArguments.getD []⟩

end Config

/-- Why a run is not configured. -/
inductive ConfigError where
  /-- The configuration file is no TOML document. -/
  | notToml
  /-- The configuration file is a document of another form. -/
  | model (error : ModelError)
  /-- A scope on the command line without a colon. -/
  | malformedAllowed (spec : String)
  /-- A scope of the configuration file without exceptions. -/
  | emptyAllowed (scope : String)
  | noDirectories
  deriving DecidableEq, Repr

/-- The text shown for a fault of the configuration. -/
def ConfigError.message : ConfigError → String
  | notToml => "parse config: not a TOML document"
  | model error => "parse config: " ++ error.message?.getD "malformed value"
  | malformedAllowed spec =>
      s!"invalid ALLOW argument: {spec} (expected SCOPE:STR[:STR...])"
  | emptyAllowed scope => s!"allowed scope `{scope}` in config has no exceptions"
  | noDirectories => "no directories to check (use -d/--dir or `dirs` in the config file)"

/-- Read the text of a configuration file. -/
def Config.parse (text : List Char) : Except ConfigError Config :=
  match Toml.parse? text with
  | none => .error .notToml
  | some members => (ofMembers members).mapError .model

end IncludeGate
