import BandedReport.Command.Help
import BandedReport.Decimal.Text

/-!
# Reading arguments

Arguments are read from left to right against the interface. `--name` and `-n` begin options; a
value stands behind `=`, directly behind a letter, or in the next argument, which must not look like
an option. Letters of options without values may share a dash. After `--` nothing is an option. Help
and version are given as soon as they are asked for, and whatever does not fit is misuse.
-/

namespace BandedReport.Command

/-- What was given to a command. -/
structure Arguments where
  /-- The argument of the command. -/
  argument : Option String
  /-- The options by name with their values, in order; those without a value have an empty one. -/
  options : List (String × String)

namespace Arguments

/-- Nothing was given. -/
def empty : Arguments := ⟨none, []⟩

/-- The value of an option. -/
def get? (a : Arguments) (name : String) : Option String := a.options.lookup name

/-- All values of an option. -/
def getAll (a : Arguments) (name : String) : List String :=
  a.options.filterMap fun (n, v) => if n == name then some v else none

end Arguments

/-- Why reading ends early. -/
inductive Stop where
  /-- Something is asked for that takes the place of running a command. -/
  | tell (text : String)
  | misuse

/-- The natural number of a text: digits, perhaps behind a plus sign, that sixty-four bits hold. -/
def readCount? (text : String) : Option Nat :=
  let digits := match text.toList with
    | '+' :: rest => rest
    | rest => rest
  if digits.isEmpty || !digits.all Char.isDigit || Nat.pow 2 64 ≤ digitsValue digits then none
  else some (digitsValue digits)

/-- Is the text a value of the kind? -/
def ValueKind.accepts (k : ValueKind) (value : String) : Bool :=
  match k with
  | text => true
  | path => value != ""
  | count => (readCount? value).isSome

/-- Does an argument look like an option? A single dash does not. -/
def looksLikeOption (arg : String) : Bool := arg.toList.head? == some '-' && arg != "-"

/-- The state of reading. -/
structure Reading where
  got : Arguments
  /-- The option that waits for its value. -/
  pending : Option OptionSpec
  /-- Whether options have ended. -/
  ended : Bool

namespace CommandSpec

/-- Add an option with a value, if it may be given once more and the value suits it. -/
def addOption (a : Arguments) (o : OptionSpec) (value : String) : Except Stop Arguments :=
  let suits := match o.value with
    | some (kind, _) => kind.accepts value
    | none => true
  if suits && (o.repeatable || (a.get? o.name).isNone) then
    .ok { a with options := a.options ++ [(o.name, value)] }
  else .error .misuse

/-- Add the argument of a command, if it has one that was not given yet. -/
def addArgument (c : CommandSpec) (a : Arguments) (value : String) : Except Stop Arguments :=
  match c.argument, a.argument with
  | some spec, none =>
    if spec.kind.accepts value then .ok { a with argument := some value } else .error .misuse
  | _, _ => .error .misuse

/-- Read an option that is given by name, perhaps with a value behind `=`. -/
def readNamed (c : CommandSpec) (s : Reading) (chars : List Char) : Except Stop Reading :=
  let name := String.ofList (chars.takeWhile (· != '='))
  let attached := match chars.dropWhile (· != '=') with
    | _ :: value => some (String.ofList value)
    | [] => none
  match c.options.find? (·.name == name) with
  | none => .error .misuse
  | some o =>
    match o.value, attached with
    | some _, none => .ok { s with pending := some o }
    | some _, some value => do return { s with got := ← addOption s.got o value }
    | none, some _ => .error .misuse
    | none, none =>
      if name == helpOption.name then .error (.tell c.help)
      else do return { s with got := ← addOption s.got o "" }

/-- Read the letters behind a dash. -/
def readLetters (c : CommandSpec) (s : Reading) : List Char → Except Stop Reading
  | [] => .ok s
  | letter :: rest =>
    match c.options.find? (·.letter == some letter) with
    | none => .error .misuse
    | some o =>
      match o.value, rest with
      | some _, [] => .ok { s with pending := some o }
      | some _, '=' :: value => do
        return { s with got := ← addOption s.got o (String.ofList value) }
      | some _, value => do return { s with got := ← addOption s.got o (String.ofList value) }
      | none, rest =>
        if o.name == helpOption.name then .error (.tell c.help)
        else do readLetters c { s with got := ← addOption s.got o "" } rest

/-- Read one argument. -/
def readArgument (c : CommandSpec) (s : Reading) (arg : String) : Except Stop Reading :=
  match s.pending with
  | some o =>
    if looksLikeOption arg then .error .misuse
    else do return { s with got := ← addOption s.got o arg, pending := none }
  | none =>
    if s.ended || !looksLikeOption arg then do
      return { s with got := ← c.addArgument s.got arg }
    else
      match arg.toList with
      | ['-', '-'] => .ok { s with ended := true }
      | '-' :: '-' :: named => c.readNamed s named
      | _ :: letters => c.readLetters s letters
      | [] => .error .misuse

/-- Read the arguments of a command. -/
def readArguments (c : CommandSpec) (args : List String) : Except Stop Arguments := do
  let s ← args.foldlM c.readArgument ⟨.empty, none, false⟩
  if s.pending.isSome || (c.argument.isSome && s.got.argument.isNone) then .error .misuse
  else .ok s.got

end CommandSpec

/-! ## The program -/

/-- Read the letters of options of the program. -/
def readProgramLetters : List Char → Except Stop Unit
  | [] => .ok ()
  | letter :: rest =>
    if verboseOption.letter == some letter then readProgramLetters rest
    else if helpOption.letter == some letter then .error (.tell programHelp)
    else if versionOption.letter == some letter then .error (.tell versionText)
    else .error .misuse

/-- Read an option of the program. -/
def readProgramOption (arg : String) : Except Stop Unit :=
  match arg.toList with
  | '-' :: '-' :: named =>
    let name := String.ofList named
    if name == verboseOption.name then .ok ()
    else if name == helpOption.name then .error (.tell programHelp)
    else if name == versionOption.name then .error (.tell versionText)
    else .error .misuse
  | '-' :: letters => readProgramLetters letters
  | _ => .error .misuse

/-- The help on a command that is named. -/
def helpOn : List String → Stop
  | [] => .tell programHelp
  | [name] =>
    if name == helpSpec.name then .tell helpHelp
    else
      match commandSpecs.find? (·.name == name) with
      | some c => .tell c.help
      | none => .misuse
  | _ => .misuse

/-- Read all arguments: the command, and what was given to it. -/
def readCommand : List String → Except Stop (CommandSpec × Arguments)
  | [] => .error .misuse
  | arg :: rest =>
    if looksLikeOption arg then do
      readProgramOption arg
      readCommand rest
    else if arg == helpSpec.name then .error (helpOn rest)
    else
      match commandSpecs.find? (·.name == arg) with
      | some c => do return (c, ← c.readArguments rest)
      | none => .error .misuse

end BandedReport.Command
