import BandedReport.Formula.Evaluation
import BandedReport.DataField

/-!
# Validation

What is checked while a formula is being designed. The quick check works on the tokens alone and
names the position of the first fault: delimiters, then argument slots, then operators, then
variables, of which all unknown ones are reported together. The full check also parses the formula
and looks at every call.
-/

namespace BandedReport.Formula

/-- The functions that accept a star as their only argument. -/
def wildcardFunctions : List String := ["COUNT", "PAGECOUNT"]

/-- Is the token absent, a comma or a closing parenthesis? -/
def endsArgument : Option Token → Bool
  | none => true
  | some t => t.isSymbol .comma || t.isSymbol .rightParen

/-- Is the token an opening parenthesis or a comma? -/
def startsArgument : Option Token → Bool
  | none => false
  | some t => t.isSymbol .leftParen || t.isSymbol .comma

/-- Does a star between two tokens stand alone in an argument slot? -/
def isWildcardBetween (previous next : Option Token) : Bool :=
  startsArgument previous && next.isSome && endsArgument next

/-- The token that a list begins with. -/
def nextToken (tokens : List Placed) : Option Token := tokens.head?.map (·.token)

/-! ## Argument slots -/

/-- Check what follows an opening parenthesis, which belongs to a function or to none. -/
def checkOpening (r : Registry) (function : Option String) (next : Option Token)
    (position : Nat) : Except Error Unit :=
  match function with
  | some f =>
    if next.any (·.isSymbol .rightParen) then
      if (r.get? f).any fun d => 0 < d.arity.min then .error (.emptyArgument f position)
      else .ok ()
    else if next.any (·.isSymbol .comma) then .error (.emptyArgument f (position + 1))
    else .ok ()
  | none =>
    if next.any (·.isSymbol .rightParen) then .error (.malformed (.emptyParentheses position))
    else .ok ()

/-- Check a comma inside the innermost open parenthesis. -/
def checkComma (calls : List (Option String)) (next : Option Token) (position : Nat) :
    Except Error Unit :=
  match calls with
  | some f :: _ =>
    if endsArgument next then .error (.emptyArgument f (position + 1)) else .ok ()
  | _ => .error (.malformed (.strayComma position))

/-- Check a star inside the innermost open parenthesis. -/
def checkStar (calls : List (Option String)) (previous next : Option Token) (position : Nat) :
    Except Error Unit :=
  if isWildcardBetween previous next then
    let isSole :=
      previous.any (·.isSymbol .leftParen) && next.any (·.isSymbol .rightParen)
    let isAllowed := match calls with
      | some f :: _ => wildcardFunctions.contains f
      | _ => false
    if isSole && isAllowed then .ok () else .error (.malformed (.misplacedWildcard position))
  else .ok ()

/-- Check argument slots, given the token before and the functions, if any, to which the open
parentheses belong, the innermost first. -/
def checkArgumentsFrom (r : Registry) (previous : Option Token) (calls : List (Option String)) :
    List Placed → Except Error Unit
  | [] => .ok ()
  | ⟨token, position⟩ :: rest =>
    let next := nextToken rest
    match token with
    | .symbol .leftParen =>
      let function := match previous with
        | some (.name f) => some f
        | _ => none
      match checkOpening r function next position with
      | .error e => .error e
      | .ok () => checkArgumentsFrom r (some token) (function :: calls) rest
    | .symbol .rightParen => checkArgumentsFrom r (some token) calls.tail rest
    | .symbol .comma =>
      match checkComma calls next position with
      | .error e => .error e
      | .ok () => checkArgumentsFrom r (some token) calls rest
    | .symbol .star =>
      match checkStar calls previous next position with
      | .error e => .error e
      | .ok () => checkArgumentsFrom r (some token) calls rest
    | _ => checkArgumentsFrom r (some token) calls rest

/-- Check for empty argument slots, calls without the arguments they need, and stray stars. -/
def checkArguments (r : Registry) (tokens : List Placed) : Except Error Unit :=
  checkArgumentsFrom r none [] tokens

/-! ## Operators -/

/-- Check one operator between its neighbours; a minus sign may also stand before an operand. -/
def checkOperator (previous : Option Placed) (operator : Symbol) (position : Nat)
    (next : Option Token) : Except Error Unit :=
  let before : Except Error Unit :=
    if operator == .minus then .ok ()
    else
      match previous with
      | none => .error (.malformed (.missingLeftOperand operator.char position))
      | some ⟨.symbol s, start⟩ =>
        if s.isOperator then .error (.consecutiveOperators s.char operator.char start)
        else if s == .leftParen || s == .comma then
          .error (.malformed (.missingLeftOperand operator.char position))
        else .ok ()
      | some _ => .ok ()
  match before with
  | .error e => .error e
  | .ok () => if endsArgument next then .error (.trailingOperator position) else .ok ()

/-- Check operators, given the token before. -/
def checkOperatorsFrom (previous : Option Placed) : List Placed → Except Error Unit
  | [] => .ok ()
  | ⟨token, position⟩ :: rest =>
    let next := nextToken rest
    let verdict : Except Error Unit := match token with
      | .symbol s =>
        if !s.isOperator ||
            (s == .star && isWildcardBetween (previous.map (·.token)) next) then .ok ()
        else checkOperator previous s position next
      | _ => .ok ()
    match verdict with
    | .error e => .error e
    | .ok () => checkOperatorsFrom (some ⟨token, position⟩) rest

/-- Check that binary operators have an operand on either side. -/
def checkOperators (tokens : List Placed) : Except Error Unit := checkOperatorsFrom none tokens

/-! ## Variables -/

/-- Is the name one that a formula may use? -/
def isKnown (declared : List String) (name : String) : Bool :=
  isSystemVariable name || declared.contains name

/-- The unknown names among the references in a token list, added to those found before. -/
def unknownReferences (declared : List String) (unknown : List String) :
    List Placed → Except Error (List String)
  | ⟨.symbol .leftBrace, _⟩ :: ⟨.reference name, position⟩ :: rest =>
    let unknown := if isKnown declared name then unknown else Expr.pushNew unknown name
    unknownReferences declared unknown (⟨.reference name, position⟩ :: rest)
  | ⟨.symbol .leftBrace, position⟩ :: _ :: _ => .error (.malformed (.emptyVariable position))
  | _ :: rest => unknownReferences declared unknown rest
  | [] => .ok unknown

/-- Check that every reference is known. -/
def checkVariables (declared : List String) (tokens : List Placed) : Except Error Unit :=
  match unknownReferences declared [] tokens with
  | .error e => .error e
  | .ok [] => .ok ()
  | .ok unknown => .error (.unknownVariables unknown)

/-! ## The checks together -/

/-- The checks on tokens, up to the first fault. -/
def quickCheck (r : Registry) (declared : List String) (formula : String) :
    Except Error Unit := do
  let chars := trimChars formula.toList
  if chars.isEmpty then .error .emptyFormula
  else
    let tokens ← Token.scan chars
    checkDelimiters tokens
    checkArguments r tokens
    checkOperators tokens
    checkVariables declared tokens

/-- Check that every call names a function and gives it a number of arguments it accepts. -/
def checkCalls (r : Registry) : Expr → Except Error Unit
  | .literal _ | .reference _ | .wildcard => .ok ()
  | .negate e => checkCalls r e
  | .binary _ left right => do
    checkCalls r left
    checkCalls r right
  | .call function args =>
    match r.get? function with
    | none => .error (.unknownFunction function)
    | some f =>
      if f.arity.accepts args.length then checkAll args
      else .error (.arity function f.arity args.length)
where
  /-- Check the calls in a list of arguments. -/
  checkAll : List Expr → Except Error Unit
    | [] => .ok ()
    | e :: es => do
      checkCalls r e
      checkAll es

/-- The full check of a formula against the declared fields; its result is the parsed formula. -/
def Registry.check (r : Registry) (fields : List DataField) (formula : String) :
    Except Error Expr := do
  quickCheck r (fields.map (·.name)) formula
  let e ← Expr.parse formula
  checkCalls r e
  return e

/-- What is said of a formula that passes. -/
def validMessage : String := "Formula is valid"

/-- The verdict on a formula: the error it fails with, if any. -/
def Registry.validate (r : Registry) (fields : List DataField) (formula : String) :
    Option Error :=
  match r.check fields formula with
  | .ok _ => none
  | .error e => some e

end BandedReport.Formula
