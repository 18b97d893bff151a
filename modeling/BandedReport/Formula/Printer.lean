import BandedReport.Formula.Expr

/-!
# The text of an expression

`Expr.text` writes a tree as a formula. Parentheses stand only where precedence asks for them: an
operand that binds less tightly, and a right operand that binds as tightly. A text literal is put
between whichever quotes it lacks; a text with both kinds is written as a sum of its pieces.
-/

namespace BandedReport.Formula

/-- Cut a text at every double quote. -/
def piecesAtQuotes : List Char → List (List Char)
  | [] => [[]]
  | c :: rest =>
    if c == '"' then [] :: piecesAtQuotes rest
    else
      match piecesAtQuotes rest with
      | piece :: pieces => (c :: piece) :: pieces
      | [] => [[c]]

/-- A text between double quotes. -/
def doubleQuoted (chars : List Char) : List Char := '"' :: chars ++ ['"']

/-- A double quote as a literal, between the signs that join it to its neighbours. -/
def quoteJoint : List Char := " + '\"' + ".toList

/-- Pieces between double quotes, joined by the double quotes that were cut out. -/
def joinPieces : List (List Char) → List Char
  | [] => []
  | [piece] => doubleQuoted piece
  | piece :: pieces => doubleQuoted piece ++ quoteJoint ++ joinPieces pieces

/-- The literal of a text. -/
def textLiteral (chars : List Char) : List Char :=
  if !chars.contains '"' then doubleQuoted chars
  else if !chars.contains '\'' then '\'' :: chars ++ ['\'']
  else '(' :: joinPieces (piecesAtQuotes chars) ++ [')']

/-- Text between parentheses. -/
def parenthesized (chars : List Char) : List Char := '(' :: chars ++ [')']

namespace Expr

/-- Does an operand need parentheses under an operator of the given precedence? -/
def needsParens (parent : Nat) (isRight : Bool) : Expr → Bool
  | binary op _ _ => op.precedence < parent || (isRight && op.precedence == parent)
  | _ => false

/-- Is the expression a binary operation? -/
def isBinary : Expr → Bool
  | binary .. => true
  | _ => false

/-- The characters of an expression. -/
def chars : Expr → List Char
  | literal (.text s) => textLiteral s.toList
  | literal value => value.displayChars
  | reference name => '\x7b' :: name.toList ++ ['\x7d']
  | wildcard => ['*']
  | negate e => '-' :: (if e.isBinary then parenthesized e.chars else e.chars)
  | binary op l r =>
    let left := if l.needsParens op.precedence false then parenthesized l.chars else l.chars
    let right := if r.needsParens op.precedence true then parenthesized r.chars else r.chars
    left ++ ' ' :: op.sign :: ' ' :: right
  | call function args => function.toList ++ '(' :: argChars args ++ [')']
where
  /-- Arguments with commas between them. -/
  argChars : List Expr → List Char
    | [] => []
    | [e] => e.chars
    | e :: es => e.chars ++ ',' :: ' ' :: argChars es

/-- The formula of an expression. -/
def toText (e : Expr) : String := String.ofList e.chars

end Expr

end BandedReport.Formula
