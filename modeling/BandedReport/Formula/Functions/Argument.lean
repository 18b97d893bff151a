import BandedReport.Formula.Registry

/-!
# Arguments of functions

How a function views the values it is called with: as numbers, as integers, as texts, as dates or
as a count of decimals. A value that does not suit is an error that names the function and the
number of the argument.
-/

namespace BandedReport.Formula

/-- The argument at an index; null when there is none. -/
def argument (args : List Scalar) (index : Nat) : Scalar := args[index]?.getD .null

/-- A number argument. -/
def numberArgument (function : String) (args : List Scalar) (index : Nat) :
    Except Error Float :=
  let value := argument args index
  match value.asNumber? with
  | some x => .ok x
  | none => .error (.typeMismatch (.argument function (index + 1) value))

/-- A number argument that may be left out. -/
def optionalNumber (function : String) (args : List Scalar) (index : Nat) (default : Float) :
    Except Error Float :=
  if index < args.length then numberArgument function args index else .ok default

/-- The largest magnitude of an integer argument. -/
def maxInteger : Nat := 9007199254740992

/-- An integer argument: a number whose fraction is dropped. -/
def integerArgument (function : String) (args : List Scalar) (index : Nat) :
    Except Error Int := do
  let x := truncate (← numberArgument function args index)
  match Binary.ofFloat x with
  | .finite v =>
    if v.integerPart.natAbs ≤ maxInteger then .ok v.integerPart
    else .error (.invalidArgument function (.outOfRange (index + 1) x))
  | _ => .error (.invalidArgument function (.outOfRange (index + 1) x))

/-- The most decimals of a formatted number. -/
def maxDecimals : Nat := 20

/-- A count of decimals that may be left out, brought into the range that can be formatted. -/
def decimalsArgument (function : String) (args : List Scalar) (index default : Nat) :
    Except Error Nat := do
  if index < args.length then
    let n ← integerArgument function args index
    return min n.toNat maxDecimals
  else return default

/-- The characters that an argument is shown as. -/
def charsArgument (args : List Scalar) (index : Nat) : List Char :=
  (argument args index).displayChars

/-- A date argument: a date, or a text that begins with one. -/
def dateArgument (function : String) (args : List Scalar) (index : Nat) :
    Except Error DateTime :=
  let value := argument args index
  match value.asDate? with
  | some d => .ok d
  | none => .error (.invalidArgument function (.notADate value))

end BandedReport.Formula
