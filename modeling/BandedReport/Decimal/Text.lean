import BandedReport.Decimal.Shortest

/-!
# Number texts

The texts in which doubles are printed and read:

* `plainText` is the shortest text that reads back, positional and without an exponent;
* `formatNumber` is the text of a number in a printed report: integral values below `10 ^ 15` are
  written as integers, so that negative zero is `0`;
* `fixedText` has a fixed number of places, taken from the exact binary value;
* `readNumber` reads decimal text with an optional fraction and exponent.
-/

namespace BandedReport

/-- Texts of the values that have no digits. -/
private def specialText (negative : Bool) : List Char :=
  if negative then "-inf".toList else "inf".toList

/-- The shortest text of a double: positional, the sign of zero kept, and of two equally near
texts the one further from zero. -/
def plainChars (x : Float) : List Char :=
  match Binary.ofFloat x with
  | .nan => "NaN".toList
  | .infinite negative => specialText negative
  | .finite v => (v.shortest .up).plain

@[inherit_doc plainChars]
def plainText (x : Float) : String := String.ofList (plainChars x)

/-- The text of a number in a report: an integer when it is integral and below `10 ^ 15`,
otherwise the shortest text. -/
def formatNumberChars (x : Float) : List Char :=
  match Binary.ofFloat x with
  | .finite v =>
    if v.isIntegral && (v.integerPart.natAbs < Nat.pow 10 15 : Bool) then
      let n := v.integerPart
      if n < 0 then '-' :: digitsOf n.natAbs else digitsOf n.natAbs
    else plainChars x
  | _ => plainChars x

@[inherit_doc formatNumberChars]
def formatNumber (x : Float) : String := String.ofList (formatNumberChars x)

/-- The magnitude of a double with exactly `places` places, rounded from its binary value, a half
going to the even digit. -/
def fixedMagnitude (places : Nat) (x : Float) : List Char :=
  match Binary.ofFloat x with
  | .nan => "NaN".toList
  | .infinite _ => specialText false
  | .finite v =>
    let (num, den) := v.fraction
    let scaled := roundQuotient .toEven (num * Nat.pow 10 places) den
    Decimal.shiftPoint (digitsOf scaled) places

/-! ## Reading -/

/-- The number that a list of decimal digits denotes. -/
def digitsValue (digits : List Char) : Nat :=
  digits.foldl (fun n c => 10 * n + (c.toNat - '0'.toNat)) 0

/-- Split a leading sign off. -/
def takeSign : List Char → Bool × List Char
  | '-' :: rest => (true, rest)
  | '+' :: rest => (false, rest)
  | chars => (false, chars)

theorem length_takeSign_le (chars : List Char) : (takeSign chars).2.length ≤ chars.length := by
  unfold takeSign
  split
  · exact Nat.le_succ _
  · exact Nat.le_succ _
  · exact Nat.le_refl _

/-- The exponent part of a number: nothing, or `e` with an optional sign and digits. -/
private def readExponent : List Char → Option Int
  | [] => some 0
  | c :: rest =>
    if c != 'e' && c != 'E' then none
    else
      let (negative, digits) := takeSign rest
      if digits.isEmpty || !digits.all Char.isDigit then none
      else some (if negative then -(digitsValue digits : Int) else digitsValue digits)

/-- Digits, an optional fraction with at least one digit in all, and an optional exponent. -/
def readDecimal (negative : Bool) (chars : List Char) : Option Decimal :=
  let whole := chars.takeWhile Char.isDigit
  let rest := chars.dropWhile Char.isDigit
  let (fraction, rest) := match rest with
    | '.' :: tail => (tail.takeWhile Char.isDigit, tail.dropWhile Char.isDigit)
    | _ => ([], rest)
  if whole.isEmpty && fraction.isEmpty then none
  else (readExponent rest).map fun exponent =>
    ⟨negative, digitsValue (whole ++ fraction), exponent - fraction.length⟩

/-- Lower case for the letters `A` to `Z`. -/
def asciiLower (chars : List Char) : List Char := chars.map Char.toLower

/-- Read a number: an optional sign, then decimal text, or one of the words for infinity and for
a missing number in any case. -/
def readNumberChars (chars : List Char) : Option Float :=
  let (negative, body) := takeSign chars
  let word := String.ofList (asciiLower body)
  if word == "inf" || word == "infinity" then
    some (Binary.withSign negative (1.0 / 0.0))
  else if word == "nan" then some (0.0 / 0.0)
  else (readDecimal negative body).map Decimal.toFloat

@[inherit_doc readNumberChars]
def readNumber (text : String) : Option Float := readNumberChars text.toList

end BandedReport
