import IncludeGate.CommandLine.Option
import IncludeGate.Settings

/-!
# Reading the command line

Arguments are read from left to right as a list of items: options with their
values, faults, and the compiler arguments after `--`.  The first item that asks
for help, asks for the version or is at fault decides on the whole command line.

A value stands in the same argument, with or without `=` after a letter and with
`=` after a long name, or in the next argument, which must not look like an option
then.  Letters of options without value may share one argument.
-/

namespace IncludeGate.CommandLine

/-- How findings are printed. -/
inductive Format where
  /-- Plain text on the error stream. -/
  | text
  /-- Workflow commands on the output stream as well. -/
  | github
  deriving DecidableEq, Repr

/-- The format with a name. -/
def Format.ofName? : String → Option Format
  | "text" => some .text
  | "github" => some .github
  | _ => none

/-- Why a command line cannot be read. -/
inductive UsageError where
  | unknownOption (argument : String)
  | unexpectedArgument (argument : String)
  | missingValue (name : OptionName)
  | unexpectedValue (name : OptionName)
  | repeated (name : OptionName)
  | invalidFormat (value : String)
  deriving DecidableEq, Repr

/-- The text shown for a fault of the command line. -/
def UsageError.message : UsageError → String
  | unknownOption argument => s!"error: unknown option '{argument}'"
  | unexpectedArgument argument => s!"error: unexpected argument '{argument}'"
  | missingValue name => s!"error: a value is required for '--{name.long}'"
  | unexpectedValue name => s!"error: no value is expected for '--{name.long}'"
  | repeated name => s!"error: '--{name.long}' cannot be given more than once"
  | invalidFormat value => s!"error: invalid format '{value}' (expected text or github)"

/-- A part of the command line. -/
inductive Item where
  /-- An option; the value is empty where it takes none. -/
  | option (name : OptionName) (value : String)
  | fault (error : UsageError)
  /-- The arguments for the compiler, which end the command line. -/
  | compilerArguments (arguments : List String)
  deriving DecidableEq, Repr

/-- Read the letters of an argument.  The last option may still lack its value. -/
def readLetters : List Char → List Item × Option OptionName
  | [] => ([], none)
  | letter :: rest =>
      match OptionName.ofLetter? letter with
      | none => ([.fault (.unknownOption (String.ofList ['-', letter]))], none)
      | some name =>
          if name.takesValue then
            match rest with
            | [] => ([], some name)
            | '=' :: value => ([.option name (String.ofList value)], none)
            | value => ([.option name (String.ofList value)], none)
          else
            let (items, waiting) := readLetters rest
            (.option name "" :: items, waiting)

/-- Read an argument with a long name, given what stands after the two hyphens. -/
def readLong (body : List Char) : List Item × Option OptionName :=
  let name := body.takeWhile (· != '=')
  match OptionName.ofLong? name, body.drop name.length with
  | none, _ => ([.fault (.unknownOption (String.ofList ('-' :: '-' :: name)))], none)
  | some option, _ :: value =>
      if option.takesValue then ([.option option (String.ofList value)], none)
      else ([.fault (.unexpectedValue option)], none)
  | some option, [] =>
      if option.takesValue then ([], some option) else ([.option option ""], none)

/-- Read one argument. -/
def readArgument (argument : String) : List Item × Option OptionName :=
  match argument.toList with
  | '-' :: '-' :: body => readLong body
  | '-' :: letter :: rest => readLetters (letter :: rest)
  | _ => ([.fault (.unexpectedArgument argument)], none)

/-- Whether an argument can be the value of the option before it. -/
def canBeValue (argument : String) : Bool :=
  argument.toList.head? != some '-' || argument == "-"

/-- The items of a command line. -/
def items : List String → List Item
  | [] => []
  | argument :: rest =>
      if argument = "--" then
        [.compilerArguments rest]
      else
        match readArgument argument with
        | (found, none) => found ++ items rest
        | (found, some name) =>
            match rest with
            | [] => found ++ [.fault (.missingValue name)]
            | value :: rest =>
                if canBeValue value then found ++ .option name value :: items rest
                else found ++ [.fault (.missingValue name)]

/-- What a run is asked to do. -/
structure RunOptions where
  overrides : Overrides
  /-- The configuration file, where one is named. -/
  config : Option String
  format : Format
  reportFile : Option String
  markdownFile : Option String
  deriving DecidableEq, Repr

/-- What a command line asks for. -/
inductive Request where
  | run (options : RunOptions)
  | help
  | version
  | refuse (error : UsageError)
  deriving DecidableEq, Repr

/-- The values that were given for an option. -/
def valuesOf (given : List (OptionName × String)) (name : OptionName) : List String :=
  (given.filter (·.1 = name)).map (·.2)

/-- The options of a run.  The compiler may also be named by the environment. -/
def RunOptions.ofGiven (environmentCompiler : Option String)
    (given : List (OptionName × String)) (compilerArguments : List String) : RunOptions where
  overrides := {
    directories := valuesOf given .directory
    forbidden := valuesOf given .forbidden
    allowed := valuesOf given .allowed
    ignore := valuesOf given .ignore
    extensions := valuesOf given .extension
    compiler := (valuesOf given .compiler).head?.or environmentCompiler
    compilerArguments }
  config := (valuesOf given .config).head?
  format := ((valuesOf given .format).head?.bind Format.ofName?).getD .text
  reportFile := (valuesOf given .reportFile).head?
  markdownFile := (valuesOf given .markdownFile).head?

/-- The fault of giving an option once more with a value, if there is one. -/
def faultOf? (given : List (OptionName × String)) (name : OptionName) (value : String) :
    Option UsageError :=
  if !name.isRepeatable && given.any (·.1 = name) then some (.repeated name)
  else if name = .format ∧ Format.ofName? value = none then some (.invalidFormat value)
  else none

/-- What the rest of a command line asks for, given the options before it. -/
def requestFrom (environmentCompiler : Option String) :
    List (OptionName × String) → List Item → Request
  | given, [] => .run (.ofGiven environmentCompiler given [])
  | given, .compilerArguments arguments :: _ =>
      .run (.ofGiven environmentCompiler given arguments)
  | _, .fault error :: _ => .refuse error
  | given, .option name value :: rest =>
      if name = .help then .help
      else if name = .version then .version
      else
        match faultOf? given name value with
        | some error => .refuse error
        | none => requestFrom environmentCompiler (given ++ [(name, value)]) rest

/-- What a command line asks for. -/
def Request.ofArguments (environmentCompiler : Option String) (arguments : List String) :
    Request :=
  requestFrom environmentCompiler [] (items arguments)

end IncludeGate.CommandLine
