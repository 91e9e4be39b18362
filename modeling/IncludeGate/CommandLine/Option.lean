/-!
# Options of the command line

Every option has a long name, and most have a letter as well.  Some options take a
value; of those, some may be given any number of times and collect their values.
-/

namespace IncludeGate.CommandLine

/-- An option. -/
inductive OptionName where
  | directory
  | forbidden
  | allowed
  | ignore
  | extension
  | compiler
  | config
  | format
  | reportFile
  | markdownFile
  | verbose
  | debug
  | help
  | version
  deriving DecidableEq, Repr

namespace OptionName

/-- All options, in the order in which they are explained. -/
def all : List OptionName :=
  [directory, forbidden, allowed, ignore, extension, compiler, config, format, reportFile,
    markdownFile, verbose, debug, help, version]

/-- The long name. -/
def long : OptionName → String
  | directory => "dir"
  | forbidden => "forbidden"
  | allowed => "allowed"
  | ignore => "ignore"
  | extension => "file-extensions"
  | compiler => "compiler"
  | config => "config"
  | format => "format"
  | reportFile => "report-out"
  | markdownFile => "markdown-out"
  | verbose => "verbose"
  | debug => "debug"
  | help => "help"
  | version => "version"

/-- The letter. -/
def letter? : OptionName → Option Char
  | directory => some 'd'
  | forbidden => some 'f'
  | allowed => some 'a'
  | ignore => some 'i'
  | extension => some 'e'
  | verbose => some 'v'
  | help => some 'h'
  | version => some 'V'
  | _ => none

/-- What the value of an option stands for, if it takes one. -/
def valueName? : OptionName → Option String
  | directory => some "DIR"
  | forbidden => some "FORBIDDEN"
  | allowed => some "ALLOWED"
  | ignore => some "IGNORE"
  | extension => some "EXTENSION"
  | compiler => some "PROGRAM"
  | config => some "PATH"
  | format => some "FORMAT"
  | reportFile => some "PATH"
  | markdownFile => some "PATH"
  | verbose | debug | help | version => none

/-- Whether an option takes a value. -/
def takesValue (name : OptionName) : Bool :=
  name.valueName?.isSome

/-- Whether an option may be given more than once. -/
def isRepeatable : OptionName → Bool
  | directory | forbidden | allowed | ignore | extension => true
  | _ => false

/-- One line about an option. -/
def explanation : OptionName → String
  | directory => "Read headers from DIR (repeatable)"
  | forbidden => "Substring that must not appear in any included path (repeatable)"
  | allowed => "Exceptions for headers under a scope, SCOPE:STR[:STR...] (repeatable)"
  | ignore => "Skip directories with this name (repeatable; default `.h` and `.hxx`)"
  | extension => "Check files ending with this suffix (repeatable)"
  | compiler => "Compiler driver used to parse headers (default `clang++`)"
  | config => "Path to the configuration (default `includeguard.toml` if present)"
  | format => "How findings are printed: text or github"
  | reportFile => "Write the JSON report to PATH"
  | markdownFile => "Write a Markdown summary to PATH"
  | verbose => "Accepted; nothing more is printed"
  | debug => "Accepted; nothing more is printed"
  | help => "Print help"
  | version => "Print version"

/-- The option with a long name. -/
def ofLong? (name : List Char) : Option OptionName :=
  all.find? fun option => option.long.toList = name

/-- The option with a letter. -/
def ofLetter? (letter : Char) : Option OptionName :=
  all.find? fun option => option.letter? = some letter

/-- The line of the help text about an option. -/
def helpLine (name : OptionName) : String :=
  let short := match name.letter? with
    | some letter => s!"-{letter}, "
    | none => "    "
  let value := match name.valueName? with
    | some value => s!" <{value}>"
    | none => ""
  s!"  {short}--{name.long}{value}  {name.explanation}"

end OptionName

end IncludeGate.CommandLine
