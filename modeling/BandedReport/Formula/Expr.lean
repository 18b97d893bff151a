import BandedReport.Scalar

/-!
# Expressions

The trees that formulas denote, their size, and the names that occur in them.

* `Expr.references` lists the fields and system variables that an expression reads;
* `Expr.calledFunctions` lists the functions that it calls;

both in the order of first appearance and without repetition.
-/

namespace BandedReport.Formula

/-- The arithmetic operators. -/
inductive Operator where
  | add | subtract | multiply | divide
deriving DecidableEq

namespace Operator

/-- The sign of an operator. -/
def sign : Operator → Char
  | add => '+'
  | subtract => '-'
  | multiply => '*'
  | divide => '/'

/-- How tightly an operator binds. -/
def precedence : Operator → Nat
  | add | subtract => 1
  | multiply | divide => 2

end Operator

/-- The tree of a formula. -/
inductive Expr where
  | literal (value : Scalar)
  /-- A field or a system variable. -/
  | reference (name : String)
  /-- The star that stands for a whole row. -/
  | wildcard
  | negate (operand : Expr)
  | binary (operator : Operator) (left right : Expr)
  | call (function : String) (args : List Expr)
deriving Inhabited

namespace Expr

/-- A number literal. -/
def number (x : Float) : Expr := literal (.number x)

/-- A text literal. -/
def text (s : String) : Expr := literal (.text s)

/-- Is the expression a bare star? -/
def isWildcard : Expr → Bool
  | wildcard => true
  | _ => false

/-- Equality of trees, where numbers are equal as numbers are compared. -/
protected def beq : Expr → Expr → Bool
  | literal a, literal b => a == b
  | reference a, reference b => a == b
  | wildcard, wildcard => true
  | negate a, negate b => a.beq b
  | binary o a b, binary p c d => o == p && a.beq c && b.beq d
  | call f as, call g bs => f == g && beqList as bs
  | _, _ => false
where
  /-- Equality of argument lists. -/
  beqList : List Expr → List Expr → Bool
    | [], [] => true
    | a :: as, b :: bs => a.beq b && beqList as bs
    | _, _ => false

instance : BEq Expr := ⟨Expr.beq⟩

/-! ## Names -/

/-- Append a name unless it is in the list. -/
def pushNew (names : List String) (name : String) : List String :=
  if names.contains name then names else names ++ [name]

/-- Append the names that an expression reads to those found before. -/
def addReferences (names : List String) : Expr → List String
  | literal _ | wildcard => names
  | reference name => pushNew names name
  | negate e => addReferences names e
  | binary _ l r => addReferences (addReferences names l) r
  | call _ args => addAll names args
where
  /-- The names read by a list of arguments. -/
  addAll (names : List String) : List Expr → List String
    | [] => names
    | e :: es => addAll (addReferences names e) es

/-- The names that an expression reads. -/
def references (e : Expr) : List String := addReferences [] e

/-- Append the functions that an expression calls to those found before. -/
def addFunctions (names : List String) : Expr → List String
  | literal _ | wildcard | reference _ => names
  | negate e => addFunctions names e
  | binary _ l r => addFunctions (addFunctions names l) r
  | call function args => addAll (pushNew names function) args
where
  /-- The functions called by a list of arguments. -/
  addAll (names : List String) : List Expr → List String
    | [] => names
    | e :: es => addAll (addFunctions names e) es

/-- The functions that an expression calls. -/
def calledFunctions (e : Expr) : List String := addFunctions [] e

end Expr

end BandedReport.Formula
