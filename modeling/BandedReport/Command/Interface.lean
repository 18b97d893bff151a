/-!
# The command line interface

The commands of the program, and for each its options and its argument, in the order in which help
lists them.
-/

namespace BandedReport.Command

/-- What the value of an option or an argument may be. -/
inductive ValueKind where
  | text
  /-- A path, which is not empty. -/
  | path
  /-- A natural number that sixty-four bits hold. -/
  | count
deriving DecidableEq

/-- An option of a command. -/
structure OptionSpec where
  /-- The name, which two dashes precede. -/
  name : String
  /-- The letter, which one dash precedes. -/
  letter : Option Char
  /-- What its value may be, and the placeholder for it. -/
  value : Option (ValueKind × String)
  /-- May the option be given more than once? -/
  repeatable : Bool
  about : String

/-- The argument of a command. -/
structure ArgumentSpec where
  kind : ValueKind
  placeholder : String
  about : String

/-- A command of the program. -/
structure CommandSpec where
  name : String
  about : String
  argument : Option ArgumentSpec
  options : List OptionSpec

/-- The name of the program. -/
def programName : String := "bandwork"

/-- The version of the program. -/
def programVersion : String := "0.1.0"

/-- What the program is. -/
def programAbout : String := "Report designer formula and print tool"

/-- Asks for more messages. -/
def verboseOption : OptionSpec :=
  ⟨"verbose", some 'v', none, true, "More log output (-v info, -vv debug, -vvv trace)"⟩

/-- Asks for help. -/
def helpOption : OptionSpec := ⟨"help", some 'h', none, false, "Print help"⟩

/-- Asks for the version. -/
def versionOption : OptionSpec := ⟨"version", some 'V', none, false, "Print version"⟩

/-- The options that come before the name of a command. -/
def programOptions : List OptionSpec := [verboseOption, helpOption, versionOption]

/-- The file of detail rows. -/
def rowsOption : OptionSpec :=
  ⟨"rows", none, some (.path, "ROWS"), false, "Detail rows (.json array or .csv)"⟩

/-- The time that formulas see. -/
def nowOption : OptionSpec :=
  ⟨"now", none, some (.text, "NOW"), false, "Fixed current time, e.g. 2024-06-01T09:30:00"⟩

/-- Checks a formula. -/
def validateSpec : CommandSpec where
  name := "validate"
  about := "Check a formula against the declared data fields"
  argument := some ⟨.text, "FORMULA", ""⟩
  options := [
    ⟨"field", some 'f', some (.text, "FIELDS"), true,
      "Declared field, `name` for the master record or `name:detail`"⟩,
    verboseOption, helpOption]

/-- Evaluates a formula. -/
def evalSpec : CommandSpec where
  name := "eval"
  about := "Evaluate a formula and print the result"
  argument := some ⟨.text, "FORMULA", ""⟩
  options := [
    ⟨"record", none, some (.text, "RECORD"), false, "Master record as an inline JSON object"⟩,
    verboseOption, rowsOption, nowOption, helpOption]

/-- Prints a design. -/
def renderSpec : CommandSpec where
  name := "render"
  about := "Render a design and print each page"
  argument := some ⟨.path, "DESIGN", "Design document (.json)"⟩
  options := [
    rowsOption, verboseOption,
    ⟨"master", none, some (.path, "MASTER"), false, "Master record (.json object)"⟩,
    ⟨"rows-per-page", none, some (.count, "ROWS_PER_PAGE"), false, "Detail rows per page"⟩,
    ⟨"error-text", none, some (.text, "ERROR_TEXT"), false,
      "Placeholder for objects whose formula failed [default: ]"⟩,
    nowOption, ⟨"json", none, none, false, "Print the rendered report as JSON"⟩, helpOption]

/-- Lists the functions. -/
def functionsSpec : CommandSpec where
  name := "functions"
  about := "List the registered formula functions"
  argument := none
  options := [verboseOption, helpOption]

/-- The commands. -/
def commandSpecs : List CommandSpec := [validateSpec, evalSpec, renderSpec, functionsSpec]

/-- Gives help; its arguments are names of commands. -/
def helpSpec : CommandSpec where
  name := "help"
  about := "Print this message or the help of the given subcommand(s)"
  argument := none
  options := []

end BandedReport.Command
