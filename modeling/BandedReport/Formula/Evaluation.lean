import BandedReport.Formula.Builtin
import BandedReport.Formula.Parser

/-!
# Evaluation

The value of an expression in a context. A sum with a text in it joins the texts of both operands;
other arithmetic takes numbers, booleans and null. A result that is no finite number is a division
by zero.
-/

namespace BandedReport.Formula

/-- The number that an operand of an arithmetic operator stands for. -/
def operandNumber (operator : Char) (value : Scalar) : Except Error Float :=
  match value with
  | .number x => .ok x
  | .boolean b => .ok (if b then 1.0 else 0.0)
  | .null => .ok 0.0
  | .text _ | .date _ => .error (.typeMismatch (.operand operator value))

/-- A value, unless it is a number that is not finite. -/
def finiteOutcome (value : Scalar) : Outcome :=
  match value with
  | .number x => if x.isFinite then .ok value else .error .divideByZero
  | _ => .ok value

/-- Is the value a text? -/
def isText : Scalar → Bool
  | .text _ => true
  | _ => false

namespace Operator

/-- The result of an operator on two numbers. -/
def onNumbers (op : Operator) (l r : Float) : Outcome :=
  match op with
  | add => finiteOutcome (.number (l + r))
  | subtract => finiteOutcome (.number (l - r))
  | multiply => finiteOutcome (.number (l * r))
  | divide => if r == 0.0 then .error .divideByZero else finiteOutcome (.number (l / r))

/-- The result of an operator on two values. -/
def apply (op : Operator) (left right : Scalar) : Outcome :=
  if op == add && (isText left || isText right) then
    .ok (.text (String.ofList (left.displayChars ++ right.displayChars)))
  else do
    let l ← operandNumber op.sign left
    let r ← operandNumber op.sign right
    op.onNumbers l r

end Operator

/-! ## Calls -/

/-- An argument of a call: whether it is a bare star, and its value in a context. -/
structure Argument where
  isWildcard : Bool
  value : Context → Outcome

/-- The value of an aggregate's argument on a row. A star counts every row; where the row does not
allow a value, the value is null. -/
def Argument.onRow (arg : Argument) (ctx : Context) (row : Record) : Outcome :=
  if arg.isWildcard then .ok (.number 1.0)
  else
    match arg.value (ctx.forRow row) with
    | .ok value => .ok value
    | .error (.missingField _) | .error (.typeMismatch _) | .error .divideByZero => .ok .null
    | .error e => .error e

/-- The rows that an aggregate walks over. -/
def Context.rowsOf (ctx : Context) : RowScope → List Record
  | .all => ctx.allRows
  | .page => ctx.pageRows

/-- The value of a function body, before it is checked to be finite. -/
def FunctionDef.runBody (f : FunctionDef) (args : List Argument) (ctx : Context) : Outcome :=
  match f.body with
  | .selective select => select (args.map (·.value ctx))
  | .aggregate scope reduce => do
    let arg := args.head?.getD ⟨true, fun _ => .error (.malformed .wildcardValue)⟩
    let values ← (ctx.rowsOf scope).mapM (arg.onRow ctx)
    return reduce values
  | .eager run =>
    match args.findIdx? (·.isWildcard) with
    | some index => .error (.malformed (.wildcardArgument f.name (index + 1)))
    | none => do
      let values ← args.mapM (·.value ctx)
      run values ctx

/-- Call a function by name. -/
def Registry.call (r : Registry) (function : String) (args : List Argument) (ctx : Context) :
    Outcome :=
  match r.get? function with
  | none => .error (.unknownFunction function)
  | some f =>
    if f.arity.accepts args.length then do finiteOutcome (← f.runBody args ctx)
    else .error (.arity function f.arity args.length)

/-! ## Expressions -/

namespace Expr

/-- The value of an expression in a context. -/
def evaluate (r : Registry) : Expr → Context → Outcome
  | literal value, _ => .ok value
  | reference name, ctx => resolve name ctx
  | wildcard, _ => .error (.malformed .wildcardValue)
  | negate e, ctx => do
    let x ← operandNumber '-' (← e.evaluate r ctx)
    return .number (-x)
  | binary op left right, ctx => do
    let l ← left.evaluate r ctx
    let r ← right.evaluate r ctx
    op.apply l r
  | call function args, ctx => r.call function (arguments args) ctx
where
  /-- The arguments of a call. -/
  arguments : List Expr → List Argument
    | [] => []
    | e :: es => ⟨e.isWildcard, fun ctx => e.evaluate r ctx⟩ :: arguments es

end Expr

/-- Parse and evaluate a formula. -/
def Registry.evaluate (r : Registry) (formula : String) (ctx : Context) : Outcome := do
  let e ← Expr.parse formula
  e.evaluate r ctx

end BandedReport.Formula
