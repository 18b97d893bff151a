import BandedReport.Formula.Functions.Argument

/-!
# Logical functions

Conditions and connectives. All but the negation select among the outcomes of their arguments: a
missing field in a branch that is not taken does no harm.
-/

namespace BandedReport.Formula.Logic

/-- The second outcome when the first holds, else the third. -/
def choose : List Outcome → Outcome
  | [condition, yes, no] => do if (← condition).isTruthy then yes else no
  | _ => .ok .null

/-- The first outcome, or the second when that is blank or a missing field. -/
def orDefault : List Outcome → Outcome
  | [value, default] =>
    match value with
    | .ok v => if v.isBlank then default else .ok v
    | .error (.missingField _) => default
    | .error e => .error e
  | _ => .ok .null

/-- True unless an outcome does not hold; later outcomes do not count. -/
def conjunction : List Outcome → Outcome
  | [] => .ok (.boolean true)
  | outcome :: rest => do
    if (← outcome).isTruthy then conjunction rest else return .boolean false

/-- False unless an outcome holds; later outcomes do not count. -/
def disjunction : List Outcome → Outcome
  | [] => .ok (.boolean false)
  | outcome :: rest => do
    if (← outcome).isTruthy then return .boolean true else disjunction rest

/-- Whether the argument does not hold. -/
def negation (args : List Scalar) : Outcome := .ok (.boolean !(argument args 0).isTruthy)

/-- The logical functions. -/
def functions : List FunctionDef :=
  let define (name : String) (arity : Arity) (description : String) (body : FunctionBody) :
      FunctionDef := { name, arity, category := .logic, description, body }
  let condition := "Second argument when the condition is truthy, else the third"
  [define "IF" (.exactly 3) condition (.selective choose),
   define "IIF" (.exactly 3) condition (.selective choose),
   define "ISNULL" (.exactly 2) "Default when the value is missing, null or empty"
     (.selective orDefault),
   define "AND" (.atLeast 1) "True when every argument is truthy" (.selective conjunction),
   define "OR" (.atLeast 1) "True when any argument is truthy" (.selective disjunction),
   define "NOT" (.exactly 1) "Logical negation" (.eager fun args _ => negation args)]

end BandedReport.Formula.Logic
