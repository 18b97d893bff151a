import BandedReport.Command.Interface

/-!
# Help texts

What the program says about itself and its commands: what it is for, how it is called, and tables
of its commands, arguments and options.
-/

namespace BandedReport.Command

/-- A text filled up with blanks to a width. -/
def padRight (width : Nat) (text : String) : String :=
  text ++ String.ofList (List.replicate (width - text.length) ' ')

/-- A table: every name is followed by what is said about it, in a column of its own. -/
def table (title : String) (indent : String → String) (entries : List (String × String)) :
    String :=
  let width := (entries.map fun (name, _) => name.length).foldl max 0
  let line (entry : String × String) : String :=
    indent entry.1 ++ padRight (width + 2) entry.1 ++ entry.2 ++ "\n"
  "\n" ++ title ++ ":\n" ++ String.join (entries.map line)

/-- How an option is written, without its letter. -/
def OptionSpec.heading (o : OptionSpec) : String :=
  let tail := match o.value with
    | some (_, placeholder) => " <" ++ placeholder ++ ">"
    | none => if o.repeatable then "..." else ""
  "--" ++ o.name ++ tail

/-- What stands before an option: its letter, or blanks. -/
def OptionSpec.lead (o : OptionSpec) : String :=
  match o.letter with
  | some c => "  -" ++ String.singleton c ++ ", "
  | none => "      "

/-- The table of options. -/
def optionTable (options : List OptionSpec) : String :=
  let lead (heading : String) : String :=
    ((options.find? (·.heading == heading)).map (·.lead)).getD ""
  table "Options" lead (options.map fun o => (o.heading, o.about))

/-- The help text of the program. -/
def programHelp : String :=
  programAbout ++ "\n\nUsage: " ++ programName ++ " [OPTIONS] <COMMAND>\n" ++
    table "Commands" (fun _ => "  ")
      ((commandSpecs ++ [helpSpec]).map fun c => (c.name, c.about)) ++
    optionTable programOptions

/-- The help text of a command. -/
def CommandSpec.help (c : CommandSpec) : String :=
  let usage := match c.argument with
    | some a => " <" ++ a.placeholder ++ ">"
    | none => ""
  let argument := match c.argument with
    | some a => table "Arguments" (fun _ => "  ") [("<" ++ a.placeholder ++ ">", a.about)]
    | none => ""
  c.about ++ "\n\nUsage: " ++ programName ++ " " ++ c.name ++ " [OPTIONS]" ++ usage ++ "\n" ++
    argument ++ optionTable c.options

/-- The help text of the command that gives help. -/
def helpHelp : String :=
  helpSpec.about ++ "\n\nUsage: " ++ programName ++ " help [COMMAND]...\n" ++
    table "Arguments" (fun _ => "  ") [("[COMMAND]...", "Print help for the subcommand(s)")]

/-- The text of the version. -/
def versionText : String := programName ++ " " ++ programVersion ++ "\n"

end BandedReport.Command
