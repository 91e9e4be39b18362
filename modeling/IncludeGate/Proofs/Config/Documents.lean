import IncludeGate.Proofs.Config.Values
import IncludeGate.Proofs.Toml.Equality
import IncludeGate.Proofs.Toml.Keys

/-!
# Documents that are configurations

A document is a configuration if each of its members is one of eight fields with a value of the
right kind.  A field that is missing is empty or unset, and every other name is refused, as it
is in the entries of `allowed`.  As no key stands twice in a table, what a document gives under
a name is one value, and the order of its keys does not matter.
-/

namespace IncludeGate.Config

/-- The names of the fields of a configuration. -/
def names : List String :=
  ["schema", "dirs", "forbidden", "allowed", "ignore", "file_extensions", "compiler",
    "compiler_args"]

/-- A member is a field with a value of the right kind. -/
inductive IsField : String → Toml → Prop where
  | text {name : String} {value : Toml} {text : String} :
      name ∈ ["schema", "compiler"] → IsText value text → IsField name value
  | texts {name : String} {value : Toml} {texts : List String} :
      name ∈ ["dirs", "forbidden", "ignore", "file_extensions", "compiler_args"] →
      IsList IsText value texts → IsField name value
  | entries {name : String} {value : Toml} {entries : List AllowedEntry} :
      name = "allowed" → IsList IsEntry value entries → IsField name value

/-- What members give under a name.  Without a member of that name it is nothing. -/
def Lists {α : Type} (Is : Toml → α → Prop) (name : String) (members : List (String × Toml))
    (results : List α) : Prop :=
  ∃ given, Gives (IsList Is) name members given ∧ results = given.getD []

/-- A configuration has what the members of a document give. -/
structure Carries (members : List (String × Toml)) (config : Config) : Prop where
  schema : Gives IsText "schema" members config.schema
  directories : Lists IsText "dirs" members config.directories
  forbidden : Lists IsText "forbidden" members config.forbidden
  allowed : Lists IsEntry "allowed" members config.allowed
  ignore : Gives (IsList IsText) "ignore" members config.ignore
  extensions : Lists IsText "file_extensions" members config.extensions
  compiler : Gives IsText "compiler" members config.compiler
  compilerArguments : Lists IsText "compiler_args" members config.compilerArguments

section Members

variable {key : String} {value : Toml} {members : List (String × Toml)}

/-! ## Configurations -/

theorem passes_fields_iff (distinct : value.HasDistinctKeys) :
    Passes fields key value ↔ IsField key value := by
  rw [passes_iff (by decide)]
  simp only [fields, List.mem_cons, List.not_mem_nil, or_false, exists_eq_or_imp,
    exists_eq_left, check_of_eq_ok_iff, reads_asString value distinct,
    reads_asStrings value distinct, reads_asList reads_asEntry value distinct]
  constructor
  · rintro (⟨named, text, isText⟩ | ⟨named, texts, areTexts⟩ | ⟨named, texts, areTexts⟩ |
      ⟨named, entries, areEntries⟩ | ⟨named, texts, areTexts⟩ | ⟨named, texts, areTexts⟩ |
      ⟨named, text, isText⟩ | ⟨named, texts, areTexts⟩)
    all_goals subst named
    · exact .text (by simp [Field.of]) isText
    · exact .texts (by simp [Field.of]) areTexts
    · exact .texts (by simp [Field.of]) areTexts
    · exact .entries rfl areEntries
    · exact .texts (by simp [Field.of]) areTexts
    · exact .texts (by simp [Field.of]) areTexts
    · exact .text (by simp [Field.of]) isText
    · exact .texts (by simp [Field.of]) areTexts
  · intro isField
    cases isField with
    | text named isText =>
        have found := Exists.intro _ isText
        simp only [List.mem_cons, List.not_mem_nil, or_false] at named
        rcases named with rfl | rfl
        all_goals simp [Field.of, found]
    | texts named areTexts =>
        have found := Exists.intro _ areTexts
        simp only [List.mem_cons, List.not_mem_nil, or_false] at named
        rcases named with rfl | rfl | rfl | rfl | rfl
        all_goals simp [Field.of, found]
    | entries named areEntries =>
        have found := Exists.intro _ areEntries
        subst named
        simp [Field.of, found]

/-- A document with distinct keys is a configuration exactly when all its members are fields,
and then it carries what they give. -/
theorem ofMembers_eq_ok_iff (distinct : (Toml.table members).HasDistinctKeys) {config : Config} :
    ofMembers members = .ok config ↔
      (∀ member ∈ members, IsField member.1 member.2) ∧ Carries members config := by
  have tested : checkMembers fields members = .ok () ↔
      ∀ member ∈ members, IsField member.1 member.2 := by
    rw [checkMembers_eq_ok_iff]
    exact forall₂_congr fun member isMember =>
      passes_fields_iff (distinct.of_mem_members member isMember)
  simp only [ofMembers, Sequence.bind_eq_ok_iff, field?_eq_ok_iff reads_asString distinct,
    field?_eq_ok_iff reads_asStrings distinct,
    field?_eq_ok_iff (reads_asList reads_asEntry) distinct]
  constructor
  · rintro ⟨_, passed, schema, hasSchema, directories, hasDirectories, forbidden, hasForbidden,
      allowed, hasAllowed, ignore, hasIgnore, extensions, hasExtensions, compiler, hasCompiler,
      arguments, hasArguments, done⟩
    cases done
    exact ⟨tested.mp passed, ⟨hasSchema, ⟨directories, hasDirectories, rfl⟩,
      ⟨forbidden, hasForbidden, rfl⟩, ⟨allowed, hasAllowed, rfl⟩, hasIgnore,
      ⟨extensions, hasExtensions, rfl⟩, hasCompiler, ⟨arguments, hasArguments, rfl⟩⟩⟩
  · rintro ⟨each, carries⟩
    obtain ⟨schema, directories, forbidden, allowed, ignore, extensions, compiler, arguments⟩ :=
      config
    obtain ⟨hasSchema, ⟨givenDirectories, hasDirectories, rfl⟩,
      ⟨givenForbidden, hasForbidden, rfl⟩, ⟨givenAllowed, hasAllowed, rfl⟩, hasIgnore,
      ⟨givenExtensions, hasExtensions, rfl⟩, hasCompiler, ⟨givenArguments, hasArguments, rfl⟩⟩ :=
      carries
    exact ⟨(), tested.mpr each, schema, hasSchema, givenDirectories, hasDirectories,
      givenForbidden, hasForbidden, givenAllowed, hasAllowed, ignore, hasIgnore, givenExtensions,
      hasExtensions, compiler, hasCompiler, givenArguments, hasArguments, rfl⟩

/-! ## Order of keys -/

theorem isField_of_reorders {other : Toml} (reorders : value.Reorders other)
    (isField : IsField key value) : IsField key other := by
  cases isField with
  | text named isText => exact .text named (ignoresOrder_isText _ _ reorders _ isText)
  | texts named areTexts =>
      exact .texts named (ignoresOrder_isList ignoresOrder_isText _ _ reorders _ areTexts)
  | entries named areEntries =>
      exact .entries named (ignoresOrder_isList ignoresOrder_isEntry _ _ reorders _ areEntries)

section Reordered

variable {reordered : List (String × Toml)}

theorem lists_of_reorders {α : Type} {Is : Toml → α → Prop} {name : String}
    (ignores : IgnoresOrder Is)
    (reorders : (Toml.table members).Reorders (.table reordered)) {results : List α}
    (lists : Lists Is name members results) : Lists Is name reordered results := by
  obtain ⟨given, gives, rfl⟩ := lists
  exact ⟨given, gives_of_reorders (ignoresOrder_isList ignores) reorders gives, rfl⟩

theorem carries_of_reorders (reorders : (Toml.table members).Reorders (.table reordered))
    {config : Config} (carries : Carries members config) : Carries reordered config where
  schema := gives_of_reorders ignoresOrder_isText reorders carries.schema
  directories := lists_of_reorders ignoresOrder_isText reorders carries.directories
  forbidden := lists_of_reorders ignoresOrder_isText reorders carries.forbidden
  allowed := lists_of_reorders ignoresOrder_isEntry reorders carries.allowed
  ignore := gives_of_reorders (ignoresOrder_isList ignoresOrder_isText) reorders carries.ignore
  extensions := lists_of_reorders ignoresOrder_isText reorders carries.extensions
  compiler := gives_of_reorders ignoresOrder_isText reorders carries.compiler
  compilerArguments :=
    lists_of_reorders ignoresOrder_isText reorders carries.compilerArguments

theorem ofMembers_of_reorders (distinct : (Toml.table members).HasDistinctKeys)
    (reorders : (Toml.table members).Reorders (.table reordered)) {config : Config}
    (read : ofMembers members = .ok config) : ofMembers reordered = .ok config := by
  obtain ⟨each, carries⟩ := (ofMembers_eq_ok_iff distinct).mp read
  refine (ofMembers_eq_ok_iff (reorders.hasDistinctKeys distinct)).mpr
    ⟨?_, carries_of_reorders reorders carries⟩
  intro member there
  obtain ⟨_, here, same⟩ := reorders.symm.exists_of_mem there
  exact isField_of_reorders same.symm (each _ here)

/-- A document is the same configuration whatever order its keys have. -/
theorem ofMembers_reorders_iff (distinct : (Toml.table members).HasDistinctKeys)
    (reorders : (Toml.table members).Reorders (.table reordered)) {config : Config} :
    ofMembers reordered = .ok config ↔ ofMembers members = .ok config :=
  ⟨ofMembers_of_reorders (reorders.hasDistinctKeys distinct) reorders.symm,
    ofMembers_of_reorders distinct reorders⟩

end Reordered

/-! ## Faults -/

theorem IsField.exists_text (isField : IsField key value) (named : key ∈ ["schema", "compiler"]) :
    ∃ text, IsText value text := by
  cases isField with
  | text _ isText => exact ⟨_, isText⟩
  | texts other _ => grind
  | entries other _ => grind

theorem IsField.exists_texts (isField : IsField key value)
    (named : key ∈ ["dirs", "forbidden", "ignore", "file_extensions", "compiler_args"]) :
    ∃ texts, IsList IsText value texts := by
  cases isField with
  | text other _ => grind
  | texts _ areTexts => exact ⟨_, areTexts⟩
  | entries other _ => grind

theorem IsField.exists_entries (isField : IsField "allowed" value) :
    ∃ entries, IsList IsEntry value entries := by
  cases isField with
  | text other _ => simp at other
  | texts other _ => simp at other
  | entries _ areEntries => exact ⟨_, areEntries⟩

theorem exists_carries (each : ∀ member ∈ members, IsField member.1 member.2) :
    ∃ config, Carries members config := by
  have text (name : String) (named : name ∈ ["schema", "compiler"]) :
      ∃ given, Gives IsText name members given :=
    exists_gives fun value member => (each (name, value) member).exists_text named
  have texts (name : String)
      (named : name ∈ ["dirs", "forbidden", "ignore", "file_extensions", "compiler_args"]) :
      ∃ given, Gives (IsList IsText) name members given :=
    exists_gives fun value member => (each (name, value) member).exists_texts named
  obtain ⟨schema, hasSchema⟩ := text "schema" (by simp)
  obtain ⟨directories, hasDirectories⟩ := texts "dirs" (by simp)
  obtain ⟨forbidden, hasForbidden⟩ := texts "forbidden" (by simp)
  obtain ⟨allowed, hasAllowed⟩ : ∃ given, Gives (IsList IsEntry) "allowed" members given :=
    exists_gives fun value member => (each ("allowed", value) member).exists_entries
  obtain ⟨ignore, hasIgnore⟩ := texts "ignore" (by simp)
  obtain ⟨extensions, hasExtensions⟩ := texts "file_extensions" (by simp)
  obtain ⟨compiler, hasCompiler⟩ := text "compiler" (by simp)
  obtain ⟨arguments, hasArguments⟩ := texts "compiler_args" (by simp)
  exact ⟨⟨schema, directories.getD [], forbidden.getD [], allowed.getD [], ignore,
    extensions.getD [], compiler, arguments.getD []⟩, hasSchema, ⟨_, hasDirectories, rfl⟩,
    ⟨_, hasForbidden, rfl⟩, ⟨_, hasAllowed, rfl⟩, hasIgnore, ⟨_, hasExtensions, rfl⟩,
    hasCompiler, ⟨_, hasArguments, rfl⟩⟩

theorem exists_ofMembers_iff (distinct : (Toml.table members).HasDistinctKeys) :
    (∃ config, ofMembers members = .ok config) ↔
      ∀ member ∈ members, IsField member.1 member.2 := by
  constructor
  · rintro ⟨config, read⟩
    exact ((ofMembers_eq_ok_iff distinct).mp read).1
  · intro each
    obtain ⟨config, carries⟩ := exists_carries each
    exact ⟨config, (ofMembers_eq_ok_iff distinct).mpr ⟨each, carries⟩⟩

theorem IsField.mem_names (isField : IsField key value) : key ∈ names := by
  cases isField with
  | text named _ =>
      have among : ["schema", "compiler"] ⊆ names := by decide
      exact among named
  | texts named _ =>
      have among : ["dirs", "forbidden", "ignore", "file_extensions", "compiler_args"] ⊆ names := by
        decide
      exact among named
  | entries named _ =>
      subst named
      decide

theorem not_isField_of_unknown {entries : List Toml} {entry : List (String × Toml)}
    (isEntry : .table entry ∈ entries)
    (unknown : ∃ member ∈ entry, member.1 ∉ ["scope", "exceptions"]) :
    ¬ IsField "allowed" (.array entries) := by
  intro isField
  obtain ⟨_, _, equal, stand⟩ := isField.exists_entries
  cases equal
  obtain ⟨_, stands⟩ := Sequence.exists_of_forall₂ stand isEntry
  obtain ⟨member, isMember, unknown⟩ := unknown
  cases stands with
  | table known => exact unknown (known member isMember)

end Members

/-! ## Texts -/

section Texts

variable {text : List Char} {members : List (String × Toml)}

theorem parse_of_parse? (document : Toml.parse? text = some members) :
    parse text = (ofMembers members).mapError .model := by
  rw [parse, document]

theorem parse_eq_ok_iff (document : Toml.parse? text = some members) {config : Config} :
    parse text = .ok config ↔ ofMembers members = .ok config := by
  rw [parse_of_parse? document, Sequence.mapError_eq_ok_iff]

/-- A member that is no field makes a text a faulty document. -/
theorem exists_parse_error (document : Toml.parse? text = some members)
    {member : String × Toml} (isMember : member ∈ members)
    (noField : ¬ IsField member.1 member.2) : ∃ error, parse text = .error (.model error) := by
  rw [parse_of_parse? document]
  cases read : ofMembers members with
  | error error => exact ⟨error, rfl⟩
  | ok config =>
      have distinct := Toml.hasDistinctKeys_of_parse? document
      have each := (exists_ofMembers_iff distinct).mp ⟨config, read⟩
      exact absurd (each member isMember) noField

/-- A document is a configuration exactly if each of its members is one of the eight fields with
a value of the right kind.  Then it carries what its members give, in the order in which they
give it, and the same members in another order, at any depth, are the same configuration.  A
member with any other name, in the document or in an entry of `allowed`, is a fault. -/
theorem parse_document (document : Toml.parse? text = some members) :
    ((∃ config, parse text = .ok config) ↔ ∀ member ∈ members, IsField member.1 member.2) ∧
      (∀ config, parse text = .ok config ↔
        (∀ member ∈ members, IsField member.1 member.2) ∧ Carries members config) ∧
      (∀ reordered, (Toml.table members).Reorders (.table reordered) →
        ∀ config, ofMembers reordered = .ok config ↔ parse text = .ok config) ∧
      ((∃ member ∈ members, member.1 ∉ names) → ∃ error, parse text = .error (.model error)) ∧
      ((∃ entries, ("allowed", .array entries) ∈ members ∧ ∃ entry, .table entry ∈ entries ∧
          ∃ member ∈ entry, member.1 ∉ ["scope", "exceptions"]) →
        ∃ error, parse text = .error (.model error)) := by
  have distinct := Toml.hasDistinctKeys_of_parse? document
  refine ⟨?accepts, ?carries, ?reorders, ?unknown, ?unknownInEntry⟩
  case accepts =>
    simp only [parse_eq_ok_iff document]
    exact exists_ofMembers_iff distinct
  case carries =>
    intro config
    rw [parse_eq_ok_iff document]
    exact ofMembers_eq_ok_iff distinct
  case reorders =>
    intro reordered reorders config
    rw [parse_eq_ok_iff document]
    exact ofMembers_reorders_iff distinct reorders
  case unknown =>
    rintro ⟨member, isMember, unknown⟩
    exact exists_parse_error document isMember fun isField => unknown isField.mem_names
  case unknownInEntry =>
    rintro ⟨entries, isMember, entry, isEntry, unknown⟩
    exact exists_parse_error document isMember (not_isField_of_unknown isEntry unknown)

end Texts

/-- An entry of `allowed` with its keys in increasing order, as documents are read. -/
def sortedEntry : Toml :=
  .table [("exceptions", .array [.string "any"]), ("scope", .string "core")]

/-- The same entry with its keys in the other order. -/
def shuffledEntry : Toml :=
  .table [("scope", .string "core"), ("exceptions", .array [.string "any"])]

theorem shuffledEntry_reorders :
    (Toml.table [("allowed", .array [sortedEntry])]).Reorders
      (.table [("allowed", .array [shuffledEntry])]) := by
  have entries : sortedEntry.Reorders shuffledEntry :=
    Toml.reorders_of_perm (by decide) (.swap _ _ _)
  have arrays := Toml.reorders_of_forall₂ (.cons entries .nil)
  refine .table (.refl _) ?_
  intro key value other here there
  cases List.mem_singleton.mp here
  cases List.mem_singleton.mp there
  exact arrays

/-- A document with this entry and nothing else. -/
def oneEntryText : List Char :=
  "[[allowed]]\nscope = 'core'\nexceptions = ['any']\n".toList

/-- The configuration that the document is. -/
def oneEntry : Config :=
  { empty with allowed := [⟨"core", ["any"]⟩] }

/-- The keys of an entry may stand in either order, and a misspelt key is a fault both in the
document and in an entry. -/
theorem parse_shuffledEntry :
    parse oneEntryText = .ok oneEntry ∧
      Carries [("allowed", .array [sortedEntry])] oneEntry ∧
      ofMembers [("allowed", .array [shuffledEntry])] = .ok oneEntry ∧
      (∃ error, parse "forbiden = []\n".toList = .error (.model error)) ∧
      ∃ error, parse "[[allowed]]\nscope = 'core'\nexception = []\n".toList =
        .error (.model error) := by
  have document : Toml.parse? oneEntryText = some [("allowed", .array [sortedEntry])] := by
    decide +kernel
  have misspelt : Toml.parse? "forbiden = []\n".toList = some [("forbiden", .array [])] := by
    decide +kernel
  have faulty : Toml.parse? "[[allowed]]\nscope = 'core'\nexception = []\n".toList =
      some [("allowed", .array [.table [("exception", .array []), ("scope", .string "core")]])] :=
    by decide +kernel
  obtain ⟨-, reads, same, -, -⟩ := parse_document document
  obtain ⟨-, -, -, unknown, -⟩ := parse_document misspelt
  obtain ⟨-, -, -, -, unknownInEntry⟩ := parse_document faulty
  have read : parse oneEntryText = .ok oneEntry := by decide +kernel
  refine ⟨read, ((reads _).mp read).2, (same _ shuffledEntry_reorders _).mpr read, unknown ?_,
    unknownInEntry ?_⟩
  · exact ⟨_, List.mem_singleton_self _, by decide⟩
  · exact ⟨_, List.mem_singleton_self _, _, List.mem_singleton_self _, _, List.mem_cons_self,
      by decide⟩

end IncludeGate.Config
