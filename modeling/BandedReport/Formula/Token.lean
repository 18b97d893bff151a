import BandedReport.Decimal.Text

/-!
# Formula tokens

The words of a formula: numbers, quoted texts, function names, variable names, and symbols of one
character. A placed token knows the offset, in characters, at which it starts.
-/

namespace BandedReport.Formula

/-- The tokens of one character. -/
inductive Symbol where
  | plus | minus | star | slash
  | comma
  | leftParen | rightParen | leftBrace | rightBrace
deriving DecidableEq

namespace Symbol

/-- The character of a symbol. -/
def char : Symbol → Char
  | plus => '+'
  | minus => '-'
  | star => '*'
  | slash => '/'
  | comma => ','
  | leftParen => '('
  | rightParen => ')'
  | leftBrace => '\x7b'
  | rightBrace => '\x7d'

/-- The symbol of a character. -/
def ofChar? : Char → Option Symbol
  | '+' => some plus
  | '-' => some minus
  | '*' => some star
  | '/' => some slash
  | ',' => some comma
  | '(' => some leftParen
  | ')' => some rightParen
  | '\x7b' => some leftBrace
  | '\x7d' => some rightBrace
  | _ => none

/-- Is the symbol an arithmetic operator? -/
def isOperator : Symbol → Bool
  | plus | minus | star | slash => true
  | _ => false

/-- Every symbol is read off its own character. -/
@[simp] theorem ofChar?_char (s : Symbol) : ofChar? s.char = some s := by
  cases s <;> rfl

end Symbol

/-- A word of a formula. -/
inductive Token where
  | number (value : Float)
  | text (value : String)
  /-- A function name. -/
  | name (value : String)
  /-- The text between two braces. -/
  | reference (name : String)
  | symbol (value : Symbol)
deriving BEq

namespace Token

/-- Is the token an arithmetic operator? -/
def isOperator : Token → Bool
  | symbol s => s.isOperator
  | _ => false

/-- Is the token the given symbol? -/
def isSymbol (s : Symbol) : Token → Bool
  | symbol t => t == s
  | _ => false

/-- How a token is named in an error. -/
def describe : Token → String
  | number x => s!"number {plainText x}"
  | text s => s!"string \"{s}\""
  | name s => s!"name '{s}'"
  | reference s => s!"variable '{s}'"
  | symbol s => s!"'{s.char}'"

end Token

/-- A token and the offset of its first character. -/
structure Placed where
  token : Token
  position : Nat

end BandedReport.Formula
