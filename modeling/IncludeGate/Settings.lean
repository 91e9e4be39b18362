import IncludeGate.Config
import IncludeGate.Path
import IncludeGate.Rules

/-!
# Settings of a run

The settings come from the configuration file and from the command line.  Lists
add up, the file's entries first, except that ignored names and compiler arguments
of the command line replace those of the file.  Scopes keep the place of their
first declaration and the exceptions of their last one.
-/

namespace IncludeGate

/-- What to scan. -/
structure ScanSettings where
  /-- Directories in which headers are looked for. -/
  roots : List String
  /-- Names of directories that are left out. -/
  ignore : StringSet
  /-- Endings of the names of headers. -/
  extensions : List String
  deriving DecidableEq, Repr

/-- Whether a file name has one of the endings of headers. -/
def ScanSettings.hasExtension (scan : ScanSettings) (name : String) : Bool :=
  scan.extensions.any fun ending => endsWith name ending

/-- Whether directories with a name are left out. -/
def ScanSettings.isIgnored (scan : ScanSettings) (name : String) : Bool :=
  decide (name ∈ scan.ignore)

/-- Which compiler to use. -/
structure CompilerSettings where
  program : String
  /-- Arguments for every run of it. -/
  arguments : List String
  deriving DecidableEq, Repr

/-- The settings of a run. -/
structure Settings where
  rules : RuleSet
  scan : ScanSettings
  compiler : CompilerSettings
  deriving DecidableEq, Repr

/-- What the command line sets. -/
structure Overrides where
  directories : List String
  forbidden : List String
  /-- Scopes in the form `SCOPE:ENTRY:…`. -/
  allowed : List String
  ignore : List String
  extensions : List String
  compiler : Option String
  compilerArguments : List String
  deriving DecidableEq, Repr

namespace Settings

/-- Names that are left out if nothing is said about it. -/
def defaultIgnore : StringSet := .ofList [".h", ".hxx"]

/-- The compiler that is used if none is named. -/
def defaultCompiler : String := "clang++"

/-- Declare a scope.  If it has been declared before, only its exceptions
change. -/
def declareScope : List AllowScope → AllowScope → List AllowScope
  | [], scope => [scope]
  | first :: rest, scope =>
      if first.scope = scope.scope then { first with exceptions := scope.exceptions } :: rest
      else first :: declareScope rest scope

/-- The scope that an entry of the configuration file declares. -/
def scopeOfEntry (entry : AllowedEntry) : Except ConfigError AllowScope :=
  if entry.exceptions.isEmpty then .error (.emptyAllowed entry.scope)
  else .ok ⟨entry.scope, .ofList entry.exceptions⟩

/-- The scope that the command line declares. -/
def scopeOfSpec (spec : String) : Except ConfigError AllowScope :=
  match AllowScope.parse? spec with
  | some scope => .ok scope
  | none => .error (.malformedAllowed spec)

/-- All declared scopes, in the order of their first declaration. -/
def resolveScopes (config : Config) (overrides : Overrides) :
    Except ConfigError (List AllowScope) := do
  let declared ← config.allowed.mapM scopeOfEntry
  let further ← overrides.allowed.mapM scopeOfSpec
  return (declared ++ further).foldl declareScope []

/-- The directories to scan.  Those of the configuration file are meant from the
directory that holds it. -/
def resolveRoots (config : Config) (overrides : Overrides) (configDirectory : String) :
    List String :=
  config.directories.map (Path.join configDirectory) ++ overrides.directories

/-- The names of directories that are left out. -/
def resolveIgnore (config : Config) (overrides : Overrides) : StringSet :=
  if !overrides.ignore.isEmpty then .ofList overrides.ignore
  else match config.ignore with
    | some names => .ofList names
    | none => defaultIgnore

/-- The compiler and its arguments. -/
def resolveCompiler (config : Config) (overrides : Overrides) : CompilerSettings where
  program := (overrides.compiler.or config.compiler).getD defaultCompiler
  arguments :=
    if overrides.compilerArguments.isEmpty then config.compilerArguments
    else overrides.compilerArguments

/-- The settings that a configuration file and a command line amount to.  Faulty
scopes are reported before a lack of directories. -/
def resolve (config : Config) (overrides : Overrides) (configDirectory : String) :
    Except ConfigError Settings := do
  let allowed ← resolveScopes config overrides
  let roots := resolveRoots config overrides configDirectory
  if roots.isEmpty then
    throw .noDirectories
  return {
    rules := ⟨.ofList (config.forbidden ++ overrides.forbidden), allowed⟩
    scan := ⟨roots, resolveIgnore config overrides, config.extensions ++ overrides.extensions⟩
    compiler := resolveCompiler config overrides }

/-- The settings for the text of a configuration file.  A text of blanks alone
sets nothing. -/
def ofText (text : String) (overrides : Overrides) (configDirectory : String) :
    Except ConfigError Settings := do
  let config ←
    if (Text.trim text.toList).isEmpty then pure .empty else Config.parse text.toList
  resolve config overrides configDirectory

end Settings

end IncludeGate
