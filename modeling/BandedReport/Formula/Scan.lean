import BandedReport.Formula.Error
import BandedReport.Text.Blank
import BandedReport.Text.CharClass

/-!
# Splitting a formula into tokens

`Token.scan` reads a formula from left to right. Blanks between tokens are skipped. A brace is a
token of its own, and everything from an opening brace to the next brace is one variable name, so
that the balance of braces can be judged on the tokens.
-/

namespace BandedReport.Formula

/-- May the character begin a function name? -/
def isNameStart (c : Char) : Bool := CharClass.isAlphabetic c || c == '_'

/-- May the character stand inside a function name? -/
def isNameChar (c : Char) : Bool := CharClass.isAlphanumeric c || c == '_' || c == '.'

/-- Is the character a brace? -/
def isBrace (c : Char) : Bool := c == '\x7b' || c == '\x7d'

/-- The number of a literal: digits with at most one point among them. -/
def literalValue (chars : List Char) : Float :=
  let whole := chars.takeWhile (· != '.')
  let fraction := (chars.dropWhile (· != '.')).drop 1
  (Decimal.mk false (digitsValue (whole ++ fraction)) (-(fraction.length : Int))).toFloat

/-- What follows the digits that `chars` begins with: a point and further digits belong to the
number as well. -/
def afterDigits (chars : List Char) : List Char :=
  match chars.dropWhile Char.isDigit with
  | '.' :: fraction => fraction.dropWhile Char.isDigit
  | rest => rest

/-- Does a number begin with `c`, followed by `rest`? -/
def startsNumber (c : Char) (rest : List Char) : Bool :=
  c.isDigit || (c == '.' && rest.head?.any Char.isDigit)

/-- The characters of a number that begins with `c`, and the rest. -/
def numberSpan (c : Char) (rest : List Char) : List Char × List Char :=
  let tail := if c == '.' then rest.dropWhile Char.isDigit else afterDigits rest
  (c :: rest.take (rest.length - tail.length), tail)

private theorem length_dropWhile_le (p : Char → Bool) (chars : List Char) :
    (chars.dropWhile p).length ≤ chars.length :=
  (List.dropWhile_suffix p).length_le

theorem length_afterDigits_le (chars : List Char) :
    (afterDigits chars).length ≤ chars.length := by
  have h := length_dropWhile_le Char.isDigit chars
  unfold afterDigits
  split
  · rename_i fraction heq
    have := length_dropWhile_le Char.isDigit fraction
    rw [heq] at h
    simp only [List.length_cons] at h
    omega
  · exact h

/-- Read the token that begins with the character `c` at `position`, which is no blank and no
symbol; also what follows the token. -/
def readWord (position : Nat) (c : Char) (rest : List Char) :
    Except Error (Token × List Char) :=
  if c == '"' || c == '\'' then
    match rest.dropWhile (· != c) with
    | [] => .error (.malformed (.unterminatedText position))
    | _ :: tail => .ok (.text (String.ofList (rest.takeWhile (· != c))), tail)
  else if startsNumber c rest then
    let (chars, tail) := numberSpan c rest
    .ok (.number (literalValue chars), tail)
  else if isNameStart c then
    .ok (.name (String.ofList (c :: rest.takeWhile isNameChar)), rest.dropWhile isNameChar)
  else .error (.malformed (.unexpectedCharacter c position))

theorem length_readWord_le {position : Nat} {c : Char} {rest : List Char} {token : Token}
    {tail : List Char} (h : readWord position c rest = .ok (token, tail)) :
    tail.length ≤ rest.length := by
  unfold readWord at h
  split at h
  · split at h
    · cases h
    · rename_i _ d t heq
      have := length_dropWhile_le (· != c) rest
      rw [heq] at this
      simp only [Except.ok.injEq, Prod.mk.injEq] at h
      obtain ⟨_, rfl⟩ := h
      simp only [List.length_cons] at this
      omega
  · split at h
    · simp only [numberSpan, Except.ok.injEq, Prod.mk.injEq] at h
      obtain ⟨_, rfl⟩ := h
      split
      · exact length_dropWhile_le _ _
      · exact length_afterDigits_le _
    · split at h
      · simp only [Except.ok.injEq, Prod.mk.injEq] at h
        obtain ⟨_, rfl⟩ := h
        exact length_dropWhile_le _ _
      · cases h

/-- Read the tokens of `chars`, which begin at `position`. -/
def scanFrom (position : Nat) (chars : List Char) : Except Error (List Placed) :=
  match chars with
  | [] => .ok []
  | c :: rest =>
    if isBlank c then scanFrom (position + 1) rest
    else
      match Symbol.ofChar? c with
      | some .leftBrace =>
        let name := rest.takeWhile (!isBrace ·)
        let brace : Placed := ⟨.symbol .leftBrace, position⟩
        let inner : List Placed :=
          if name.isEmpty then []
          else [⟨.reference (String.ofList (trimChars name)), position + 1⟩]
        match scanFrom (position + 1 + name.length) (rest.dropWhile (!isBrace ·)) with
        | .error e => .error e
        | .ok more => .ok (brace :: inner ++ more)
      | some symbol =>
        match scanFrom (position + 1) rest with
        | .error e => .error e
        | .ok more => .ok (⟨.symbol symbol, position⟩ :: more)
      | none =>
        match _h : readWord position c rest with
        | .error e => .error e
        | .ok (token, tail) =>
          match scanFrom (position + 1 + (rest.length - tail.length)) tail with
          | .error e => .error e
          | .ok more => .ok (⟨token, position⟩ :: more)
termination_by chars.length
decreasing_by
  · simp
  · exact Nat.lt_succ_of_le (length_dropWhile_le _ _)
  · simp
  · exact Nat.lt_succ_of_le (length_readWord_le _h)

/-- Split a formula into tokens. -/
def Token.scan (formula : List Char) : Except Error (List Placed) := scanFrom 0 formula

end BandedReport.Formula
