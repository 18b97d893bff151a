import BandedReport.Command.Arguments
import BandedReport.DataFile
import BandedReport.Formula.Validation
import BandedReport.Print.Document
import BandedReport.Print.Pass

/-!
# Running commands

What the program answers to its arguments, given the contents of files and the time of day. The
answer is what is printed, what is reported, and a number that tells success from failure and from
misuse.
-/

namespace BandedReport.Command

open Formula (Context Registry)

/-- The answer of the program. -/
structure Answer where
  /-- Zero for success, one for failure, two for misuse. -/
  code : Nat
  printed : String
  reported : String

/-- The contents of files. -/
abbrev Files := String → FileContent

/-- Why a command fails. -/
inductive Failure where
  | unknownFieldSource (source spec : String)
  | formula (cause : Formula.Error)
  | invalidRecord
  | invalidTime (text : String)
  | rows (path : String) (cause : FileError)
  | master (path : String) (cause : FileError)
  | design (path : String) (cause : FileError)

/-- The wording of a failure. -/
def Failure.message : Failure → String
  | unknownFieldSource source spec =>
    "Unknown field source '" ++ source ++ "' in '" ++ spec ++ "'"
  | formula cause => cause.message
  | invalidRecord => "Invalid --record JSON"
  | invalidTime text => "Invalid --now value '" ++ text ++ "'"
  | rows path _ => "Failed to read rows from '" ++ path ++ "'"
  | master path _ => "Failed to read master record '" ++ path ++ "'"
  | design path _ => "Failed to open '" ++ path ++ "'"

/-- The outcome of a command: what is printed and what is reported. -/
abbrev Result := Except Failure (String × String)

/-! ## Inputs -/

/-- A field that is declared by its name, alone or with its source behind a colon. -/
def declaredField (spec : String) : Except Failure DataField :=
  let chars := spec.toList
  let name := String.ofList (trimChars (chars.takeWhile (· != ':')))
  match chars.dropWhile (· != ':') with
  | [] => .ok (.ofName .master name)
  | _ :: source =>
    match String.ofList source with
    | "detail" => .ok (.ofName .detail name)
    | "master" => .ok (.ofName .master name)
    | source => .error (.unknownFieldSource source spec)

/-- The rows of a file, if one is given. -/
def givenRows (files : Files) (path : Option String) : Except Failure (List Record) :=
  match path with
  | none => .ok []
  | some path =>
    match DataFile.readRows path (files path) with
    | .ok rows => .ok rows
    | .error e => .error (.rows path e)

/-- The time that is given, or else the time of day. -/
def givenTime (now : DateTime) (text : Option String) : Except Failure DateTime :=
  match text with
  | none => .ok now
  | some text =>
    match DateTime.read? text with
    | some time => .ok time
    | none => .error (.invalidTime text)

/-- The record that is given as JSON. -/
def givenRecord (text : Option String) : Except Failure Record :=
  match text with
  | none => .ok .empty
  | some text =>
    match (Json.ofText? text).bind Record.ofJson? with
    | some record => .ok record
    | none => .error .invalidRecord

/-- The master record of a file, if one is given. -/
def givenMaster (files : Files) (path : Option String) : Except Failure Record :=
  match path with
  | none => .ok .empty
  | some path =>
    match DataFile.readRecord (files path) with
    | .ok record => .ok record
    | .error e => .error (.master path e)

/-- The design of a file. -/
def givenDesign (files : Files) (path : String) : Except Failure (Design Float) :=
  match DataFile.readDesign (files path) with
  | .ok design => .ok design
  | .error e => .error (.design path e)

/-! ## Commands -/

/-- Check a formula. -/
def runValidate (a : Arguments) : Result := do
  let fields ← (a.getAll "field").mapM declaredField
  match Registry.builtin.validate fields (a.argument.getD "") with
  | none => return (Formula.validMessage ++ "\n", "")
  | some e => .error (.formula e)

/-- Evaluate a formula. -/
def runEval (a : Arguments) (files : Files) (now : DateTime) : Result := do
  let master ← givenRecord (a.get? "record")
  let rows ← givenRows files (a.get? "rows")
  let now ← givenTime now (a.get? "now")
  let ctx := { Context.ofMaster master now with allRows := rows, pageRows := rows }
  match Registry.builtin.evaluate (a.argument.getD "") ctx with
  | .ok value => return (value.display ++ "\n", "")
  | .error e => .error (.formula e)

/-- The line that is reported after a report was printed. -/
def summaryLine (t : Tally) : String :=
  s!"Rendered {t.pages} pages ({t.objects} objects, " ++
    s!"{t.missingFields} missing fields, {t.errors} errors)\n"

/-- Print a design. -/
def runRender (a : Arguments) (files : Files) (now : DateTime) : Result := do
  let design ← givenDesign files (a.argument.getD "")
  let rows ← givenRows files (a.get? "rows")
  let master ← givenMaster files (a.get? "master")
  let now ← givenTime now (a.get? "now")
  let options : PrintOptions Float :=
    { PrintOptions.empty with
      rowsPerPage := (a.get? "rows-per-page").bind readCount?
      errorText := (a.get? "error-text").getD "" }
  let printer : Printer Float := ⟨.builtin, options, now⟩
  let report := printer.print design master rows
  let text :=
    if (a.get? "json").isSome then report.toJson.pretty ++ "\n" else report.toText
  return (text, summaryLine report.tally)

/-- A line of the list of functions. -/
def functionLine (f : Formula.FunctionDef) : String :=
  padRight 12 f.name ++ padRight 10 f.category.label ++ padRight 14 f.arity.describe ++
    f.description ++ "\n"

/-- List the functions. -/
def runFunctions : Result := .ok (String.join (Registry.builtin.functions.map functionLine), "")

/-- Run a command. -/
def CommandSpec.run (c : CommandSpec) (a : Arguments) (files : Files) (now : DateTime) : Result :=
  match c.name with
  | "validate" => runValidate a
  | "eval" => runEval a files now
  | "render" => runRender a files now
  | _ => runFunctions

/-- The answer to arguments. -/
def respond (args : List String) (files : Files) (now : DateTime) : Answer :=
  match readCommand args with
  | .error (.tell text) => ⟨0, text, ""⟩
  | .error .misuse =>
    ⟨2, "", "error: the arguments do not fit\n\nFor more information, try '--help'.\n"⟩
  | .ok (c, a) =>
    match c.run a files now with
    | .ok (printed, reported) => ⟨0, printed, reported⟩
    | .error e => ⟨1, "", "Error: " ++ e.message ++ "\n"⟩

/-- The files that arguments name. -/
def namedFiles (args : List String) : List String :=
  match readCommand args with
  | .error _ => []
  | .ok (c, a) =>
    let design := if c.name == renderSpec.name then a.argument.toList else []
    design ++ a.getAll "rows" ++ a.getAll "master"

end BandedReport.Command
