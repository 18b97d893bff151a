import BandedReport.Formula.Delimiters
import BandedReport.Formula.Expr
import BandedReport.Formula.Scan

/-!
# Parsing formulas

A parser by recursive descent for the grammar

* expression: terms joined by `+` and `-`;
* term: factors joined by `*` and `/`;
* factor: a number, a text, a reference in braces, a call, an expression in parentheses, or a
  minus sign and a factor;
* argument: a star before a comma or a parenthesis, or an expression.

Both kinds of operators group to the left. Every step hands on the tokens it has not read together
with the proof that there are fewer of them, which is why the parser ends.
-/

namespace BandedReport.Formula

/-- The outcome of a step that reads at least one token: a result and the tokens that remain. -/
abbrev Read (α : Type) (tokens : List Placed) :=
  Except Error (α × { rest : List Placed // rest.length < tokens.length })

/-- The outcome of a step that may read nothing. -/
abbrev ReadMore (α : Type) (tokens : List Placed) :=
  Except Error (α × { rest : List Placed // rest.length ≤ tokens.length })

/-- Read a given symbol. -/
def expectSymbol (expected : Symbol) : (tokens : List Placed) → Read Unit tokens
  | [] => .error (.malformed (.expectedSymbolAtEnd expected))
  | ⟨token, position⟩ :: rest =>
    if token.isSymbol expected then .ok ((), ⟨rest, by simp⟩)
    else .error (.malformed (.expectedSymbol expected token position))

/-- The operator that joins terms, if the token is one. -/
def sumOperator? : Token → Option Operator
  | .symbol .plus => some .add
  | .symbol .minus => some .subtract
  | _ => none

/-- The operator that joins factors, if the token is one. -/
def productOperator? : Token → Option Operator
  | .symbol .star => some .multiply
  | .symbol .slash => some .divide
  | _ => none

/-- Do the tokens begin with the symbol that ends an argument? -/
def atArgumentEnd : List Placed → Bool
  | ⟨.symbol .comma, _⟩ :: _ | ⟨.symbol .rightParen, _⟩ :: _ => true
  | _ => false

/-- Read a star that is a whole argument. -/
def readWildcard? (tokens : List Placed) :
    Option { rest : List Placed // rest.length < tokens.length } :=
  match tokens with
  | ⟨.symbol .star, _⟩ :: rest => if atArgumentEnd rest then some ⟨rest, by simp⟩ else none
  | _ => none

mutual

/-- Read terms joined by `+` and `-`. -/
def readExpression (tokens : List Placed) : Read Expr tokens :=
  match readTerm tokens with
  | .error e => .error e
  | .ok (left, ⟨rest, hrest⟩) =>
    match readSum left rest with
    | .error e => .error e
    | .ok (e, ⟨rest', hrest'⟩) => .ok (e, ⟨rest', by omega⟩)
termination_by (tokens.length, 3)

/-- Read the terms that follow `left`. -/
def readSum (left : Expr) (tokens : List Placed) : ReadMore Expr tokens :=
  match tokens with
  | [] => .ok (left, ⟨[], Nat.le_refl _⟩)
  | ⟨token, position⟩ :: operand =>
    match sumOperator? token with
    | none => .ok (left, ⟨⟨token, position⟩ :: operand, Nat.le_refl _⟩)
    | some op =>
      match readTerm operand with
      | .error e => .error e
      | .ok (right, ⟨rest, hrest⟩) =>
        match readSum (.binary op left right) rest with
        | .error e => .error e
        | .ok (e, ⟨rest', hrest'⟩) =>
          .ok (e, ⟨rest', by simp only [List.length_cons]; omega⟩)
termination_by (tokens.length, 4)

/-- Read factors joined by `*` and `/`. -/
def readTerm (tokens : List Placed) : Read Expr tokens :=
  match readFactor tokens with
  | .error e => .error e
  | .ok (left, ⟨rest, hrest⟩) =>
    match readProduct left rest with
    | .error e => .error e
    | .ok (e, ⟨rest', hrest'⟩) => .ok (e, ⟨rest', by omega⟩)
termination_by (tokens.length, 2)

/-- Read the factors that follow `left`. -/
def readProduct (left : Expr) (tokens : List Placed) : ReadMore Expr tokens :=
  match tokens with
  | [] => .ok (left, ⟨[], Nat.le_refl _⟩)
  | ⟨token, position⟩ :: operand =>
    match productOperator? token with
    | none => .ok (left, ⟨⟨token, position⟩ :: operand, Nat.le_refl _⟩)
    | some op =>
      match readFactor operand with
      | .error e => .error e
      | .ok (right, ⟨rest, hrest⟩) =>
        match readProduct (.binary op left right) rest with
        | .error e => .error e
        | .ok (e, ⟨rest', hrest'⟩) =>
          .ok (e, ⟨rest', by simp only [List.length_cons]; omega⟩)
termination_by (tokens.length, 4)

/-- Read a factor. -/
def readFactor (tokens : List Placed) : Read Expr tokens :=
  match tokens with
  | [] => .error (.malformed .endOfFormula)
  | ⟨.number x, _⟩ :: rest => .ok (.number x, ⟨rest, by simp⟩)
  | ⟨.text s, _⟩ :: rest => .ok (.text s, ⟨rest, by simp⟩)
  | ⟨.symbol .minus, _⟩ :: operand =>
    match readFactor operand with
    | .error e => .error e
    | .ok (e, ⟨rest, hrest⟩) =>
      .ok (.negate e, ⟨rest, by simp only [List.length_cons]; omega⟩)
  | ⟨.symbol .leftParen, _⟩ :: inner =>
    match readExpression inner with
    | .error e => .error e
    | .ok (e, ⟨rest, hrest⟩) =>
      match expectSymbol .rightParen rest with
      | .error fault => .error fault
      | .ok ((), ⟨rest', hrest'⟩) =>
        .ok (e, ⟨rest', by simp only [List.length_cons]; omega⟩)
  | ⟨.symbol .leftBrace, _⟩ :: ⟨.reference name, _⟩ :: rest =>
    match expectSymbol .rightBrace rest with
    | .error fault => .error fault
    | .ok ((), ⟨rest', hrest'⟩) =>
      .ok (.reference name, ⟨rest', by simp only [List.length_cons]; omega⟩)
  | ⟨.symbol .leftBrace, position⟩ :: _ => .error (.malformed (.emptyVariable position))
  | ⟨.name function, _⟩ :: ⟨.symbol .leftParen, _⟩ :: ⟨.symbol .rightParen, _⟩ :: rest =>
    .ok (.call function [], ⟨rest, by simp only [List.length_cons]; omega⟩)
  | ⟨.name function, _⟩ :: ⟨.symbol .leftParen, _⟩ :: inner =>
    match readArguments inner with
    | .error e => .error e
    | .ok (args, ⟨rest, hrest⟩) =>
      .ok (.call function args, ⟨rest, by simp only [List.length_cons]; omega⟩)
  | ⟨.name function, position⟩ :: _ => .error (.malformed (.expectedCall function position))
  | ⟨token, position⟩ :: _ => .error (.malformed (.unexpectedToken token position))
termination_by (tokens.length, 1)

/-- Read one argument. -/
def readArgument (tokens : List Placed) : Read Expr tokens :=
  match readWildcard? tokens with
  | some rest => .ok (.wildcard, rest)
  | none => readExpression tokens
termination_by (tokens.length, 4)

/-- Read arguments and the parenthesis behind them. -/
def readArguments (tokens : List Placed) : Read (List Expr) tokens :=
  match readArgument tokens with
  | .error e => .error e
  | .ok (_, ⟨[], _⟩) => .error (.malformed .unclosedCall)
  | .ok (arg, ⟨⟨.symbol .comma, _⟩ :: more, hrest⟩) =>
    have : more.length < tokens.length := by simp only [List.length_cons] at hrest; omega
    match readArguments more with
    | .error e => .error e
    | .ok (args, ⟨rest, hrest'⟩) =>
      .ok (arg :: args, ⟨rest, by omega⟩)
  | .ok (arg, ⟨⟨.symbol .rightParen, _⟩ :: rest, hrest⟩) =>
    .ok ([arg], ⟨rest, by simp only [List.length_cons] at hrest; omega⟩)
  | .ok (_, ⟨⟨token, position⟩ :: _, _⟩) =>
    .error (.malformed (.expectedArgumentEnd token position))
termination_by (tokens.length, 5)

end

/-- The tree of a token list that is one whole expression. -/
def exprOfTokens (tokens : List Placed) : Except Error Expr :=
  match readExpression tokens with
  | .error e => .error e
  | .ok (e, ⟨[], _⟩) => .ok e
  | .ok (_, ⟨⟨token, position⟩ :: _, _⟩) => .error (.malformed (.unexpectedToken token position))

/-- Parse a formula. Blanks around it do not count; delimiters are checked before the grammar. -/
def Expr.parse (formula : String) : Except Error Expr := do
  let chars := trimChars formula.toList
  if chars.isEmpty then .error .emptyFormula
  else
    let tokens ← Token.scan chars
    checkDelimiters tokens
    exprOfTokens tokens

end BandedReport.Formula
