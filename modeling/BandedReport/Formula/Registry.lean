import BandedReport.Formula.Context

/-!
# Functions and their registry

A function has a name, an arity and a body. There are three kinds of bodies: those that take the
values of all arguments, those that select among the outcomes of their arguments, so that an error
in an argument they do not need is of no account, and aggregates, which fold the values that their
argument has on the rows. A registry holds the functions that formulas can call, sorted by name.
-/

namespace BandedReport.Formula

/-- The rows that an aggregate walks over. -/
inductive RowScope where
  | all
  | page
deriving DecidableEq

/-- How a function computes its value. -/
inductive FunctionBody where
  | eager (run : List Scalar → Context → Outcome)
  | selective (select : List Outcome → Outcome)
  | aggregate (scope : RowScope) (reduce : List Scalar → Scalar)

/-- The groups in which functions are offered. -/
inductive FunctionCategory where
  | aggregate | math | text | date | logic | format | finance
  /-- Defined by the host. -/
  | custom
deriving DecidableEq

/-- The name of a group. -/
def FunctionCategory.label : FunctionCategory → String
  | aggregate => "aggregate"
  | math => "math"
  | text => "string"
  | date => "date"
  | logic => "logic"
  | format => "format"
  | finance => "finance"
  | custom => "custom"

/-- A function that formulas can call. -/
structure FunctionDef where
  name : String
  arity : Arity
  category : FunctionCategory
  /-- One line for whoever picks a function. -/
  description : String
  body : FunctionBody

/-- A function defined by the host. -/
def FunctionDef.ofHost (name : String) (arity : Arity)
    (run : List Scalar → Context → Outcome) : FunctionDef :=
  { name, arity, category := .custom, description := "", body := .eager run }

/-- The functions that formulas can call. -/
structure Registry where
  /-- The functions, sorted by name, each name once. -/
  functions : List FunctionDef

namespace Registry

/-- The registry without functions. -/
def empty : Registry := ⟨[]⟩

/-- The function of a name. -/
def get? (r : Registry) (name : String) : Option FunctionDef :=
  r.functions.find? (·.name == name)

/-- Put a function into a list sorted by name. -/
def putFunction (f : FunctionDef) : List FunctionDef → List FunctionDef
  | [] => [f]
  | g :: rest =>
    if f.name < g.name then f :: g :: rest
    else if g.name == f.name then f :: rest
    else g :: putFunction f rest

/-- Add a function, in place of the one that had its name. -/
def register (r : Registry) (f : FunctionDef) : Registry := ⟨putFunction f r.functions⟩

/-- Remove the function of a name. -/
def unregister (r : Registry) (name : String) : Registry :=
  ⟨r.functions.filter (·.name != name)⟩

/-- The registry of a list of functions; of a repeated name the last function counts. -/
def ofList (functions : List FunctionDef) : Registry := functions.foldl register empty

/-- The number of functions. -/
def size (r : Registry) : Nat := r.functions.length

end Registry

end BandedReport.Formula
