import BandedReport.Formula.Token
import BandedReport.Scalar

/-!
# Formula errors

What can go wrong with a formula while it is checked, parsed or evaluated. Each cause is a
constructor with the values it concerns; the wording is in `Error.message`.
-/

namespace BandedReport.Formula

/-- The numbers of arguments that a function accepts; without `max` there is no upper bound. -/
structure Arity where
  min : Nat
  max : Option Nat
deriving DecidableEq

namespace Arity

/-- Just `n` arguments. -/
def exactly (n : Nat) : Arity := ⟨n, some n⟩

/-- From `low` to `high` arguments. -/
def between (low high : Nat) : Arity := ⟨low, some high⟩

/-- At least `low` arguments. -/
def atLeast (low : Nat) : Arity := ⟨low, none⟩

/-- Is a number of arguments accepted? -/
def accepts (a : Arity) (count : Nat) : Bool :=
  a.min ≤ count && a.max.all fun high => count ≤ high

/-- The text of an arity. -/
def describe (a : Arity) : String :=
  match a.max with
  | some high => if high == a.min then s!"{high}" else s!"{a.min} to {high}"
  | none => s!"at least {a.min}"

end Arity

/-- Why a formula text cannot be read. -/
inductive Fault where
  | unexpectedCharacter (char : Char) (position : Nat)
  | unterminatedText (position : Nat)
  | unexpectedToken (token : Token) (position : Nat)
  | endOfFormula
  | expectedSymbol (expected : Symbol) (found : Token) (position : Nat)
  | expectedSymbolAtEnd (expected : Symbol)
  | emptyVariable (position : Nat)
  | expectedCall (name : String) (position : Nat)
  | expectedArgumentEnd (found : Token) (position : Nat)
  | unclosedCall
  | emptyParentheses (position : Nat)
  | strayComma (position : Nat)
  | misplacedWildcard (position : Nat)
  | missingLeftOperand (operator : Char) (position : Nat)
  /-- A wildcard was evaluated. -/
  | wildcardValue
  /-- A wildcard was given to a function that evaluates its arguments. -/
  | wildcardArgument (function : String) (number : Nat)

/-- The wording of a fault. -/
def Fault.message : Fault → String
  | unexpectedCharacter c position => s!"Unexpected character '{c}' at position {position}"
  | unterminatedText position =>
    s!"Unterminated string literal starting at position {position}"
  | unexpectedToken token position => s!"Unexpected {token.describe} at position {position}"
  | endOfFormula => "Unexpected end of formula"
  | expectedSymbol expected found position =>
    s!"Expected '{expected.char}' but found {found.describe} at position {position}"
  | expectedSymbolAtEnd expected => s!"Expected '{expected.char}' but reached end of formula"
  | emptyVariable position => s!"Empty variable reference at position {position}"
  | expectedCall name position => s!"Expected '(' after '{name}' at position {position}"
  | expectedArgumentEnd found position =>
    s!"Expected ',' or ')' but found {found.describe} at position {position}"
  | unclosedCall => "Unclosed function call at end of formula"
  | emptyParentheses position => s!"Empty parentheses at position {position}"
  | strayComma position => s!"Unexpected ',' at position {position}"
  | misplacedWildcard position =>
    s!"'*' at position {position} is only allowed as COUNT(*) or PAGECOUNT(*)"
  | missingLeftOperand operator position =>
    s!"Operator '{operator}' at position {position} has no left operand"
  | wildcardValue => "'*' is only allowed as COUNT(*) or PAGECOUNT(*)"
  | wildcardArgument function number => s!"'*' is not a valid argument {number} of {function}"

/-- Why a value does not suit the place it is used in. -/
inductive Mismatch where
  | operand (operator : Char) (value : Scalar)
  | argument (function : String) (number : Nat) (value : Scalar)

/-- The wording of a mismatch. -/
def Mismatch.message : Mismatch → String
  | operand operator value =>
    s!"cannot apply '{operator}' to {value.typeName} value '{value.display}'"
  | argument function number value =>
    s!"{function} expects a number for argument {number}, got {value.typeName} '{value.display}'"

/-- Why an argument of the right type is refused. -/
inductive ArgumentFault where
  | outOfRange (number : Nat) (value : Float)
  | notADate (value : Scalar)
  | tooWide (width limit : Nat)
  | amountOutOfRange (value : Float)
  /-- A reason given by a function that the host defines. -/
  | custom (reason : String)

/-- The wording of a refusal. -/
def ArgumentFault.message : ArgumentFault → String
  | outOfRange number value => s!"argument {number} is out of range: {plainText value}"
  | notADate value => s!"'{value.display}' is not a date"
  | tooWide width limit => s!"width {width} exceeds {limit}"
  | amountOutOfRange value => s!"{plainText value} is out of range"
  | custom reason => reason

/-- What can go wrong with a formula. -/
inductive Error where
  | emptyFormula
  | unbalanced (delimiter : Symbol) (position : Nat)
  | emptyArgument (function : String) (position : Nat)
  | consecutiveOperators (first second : Char) (position : Nat)
  | trailingOperator (position : Nat)
  | malformed (fault : Fault)
  | unknownVariables (names : List String)
  | unknownFunction (name : String)
  | arity (function : String) (expected : Arity) (actual : Nat)
  | typeMismatch (cause : Mismatch)
  | divideByZero
  | missingField (name : String)
  | invalidArgument (function : String) (fault : ArgumentFault)

/-- The three classes of errors: the text is malformed, a name is unknown, or the data does not
allow a value. -/
inductive ErrorClass where
  | malformed
  | name
  | evaluation
deriving DecidableEq

namespace Error

/-- The class of an error. A wrong number of arguments counts as an error of evaluation. -/
def errorClass : Error → ErrorClass
  | emptyFormula | unbalanced .. | emptyArgument .. | consecutiveOperators ..
  | trailingOperator _ | malformed _ => .malformed
  | unknownVariables _ | unknownFunction _ => .name
  | arity .. | typeMismatch _ | divideByZero | missingField _ | invalidArgument .. => .evaluation

/-- The wording of an error. -/
def message : Error → String
  | emptyFormula => "Formula is empty"
  | unbalanced delimiter position => s!"Unbalanced '{delimiter.char}' at position {position}"
  | emptyArgument function position => s!"Empty argument in {function} at position {position}"
  | consecutiveOperators first second position =>
    s!"Consecutive operators '{first}{second}' at position {position}"
  | trailingOperator position =>
    s!"Operator at position {position} is missing its right operand"
  | malformed fault => s!"Syntax error: {fault.message}"
  | unknownVariables names => "Unknown variables: " ++ ", ".intercalate names
  | unknownFunction name => s!"Unknown function: {name}"
  | arity function expected actual =>
    s!"Wrong number of arguments for {function}: expected {expected.describe}, got {actual}"
  | typeMismatch cause => s!"Type mismatch: {cause.message}"
  | divideByZero => "Division by zero"
  | missingField name => s!"Missing field: {name}"
  | invalidArgument function fault => s!"Invalid argument to {function}: {fault.message}"

end Error

end BandedReport.Formula
