import BandedReport.Formula.Error

/-!
# Balance of delimiters

Parentheses and braces pair up and nest. The check runs over the tokens with the stack of
delimiters that are open.
-/

namespace BandedReport.Formula

/-- Check the balance of tokens, given the open delimiters, the innermost first. -/
def balanceFrom (opened : List (Symbol × Nat)) : List Placed → Except Error Unit
  | [] =>
    match opened with
    | [] => .ok ()
    | (delimiter, position) :: _ => .error (.unbalanced delimiter position)
  | ⟨.symbol .leftParen, position⟩ :: rest => balanceFrom ((.leftParen, position) :: opened) rest
  | ⟨.symbol .leftBrace, position⟩ :: rest => balanceFrom ((.leftBrace, position) :: opened) rest
  | ⟨.symbol .rightParen, position⟩ :: rest =>
    match opened with
    | (.leftParen, _) :: outer => balanceFrom outer rest
    | _ => .error (.unbalanced .rightParen position)
  | ⟨.symbol .rightBrace, position⟩ :: rest =>
    match opened with
    | (.leftBrace, _) :: outer => balanceFrom outer rest
    | _ => .error (.unbalanced .rightBrace position)
  | _ :: rest => balanceFrom opened rest

/-- Check that parentheses and braces pair up and nest. -/
def checkDelimiters (tokens : List Placed) : Except Error Unit := balanceFrom [] tokens

end BandedReport.Formula
