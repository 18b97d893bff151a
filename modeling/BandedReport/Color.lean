import BandedReport.Text.Blank
import BandedReport.Text.Hex
import BandedReport.Decimal.Text

/-!
# Colors

Colors with an opacity. They are read from the texts that color formulas produce (a name, `#` and
hexadecimal digits, or `rgb(r, g, b)`) and written as hexadecimal digits, the opacity first when it
is not full.
-/

namespace BandedReport

/-- A color: red, green, blue and opacity. -/
structure Color where
  red : UInt8
  green : UInt8
  blue : UInt8
  alpha : UInt8
deriving DecidableEq

namespace Color

/-- An opaque color. -/
def rgb (red green blue : UInt8) : Color := ⟨red, green, blue, 255⟩

/-- Opaque black. -/
def black : Color := rgb 0 0 0

/-! ## Writing -/

/-- The two capital hexadecimal digits of a component. -/
def hexPair (n : UInt8) : List Char :=
  let digit (k : Nat) : Char := (Nat.digitChar k).toUpper
  [digit (n.toNat / 16), digit (n.toNat % 16)]

/-- The hexadecimal form, `#RRGGBB`, or `#AARRGGBB` when the color is not opaque. -/
def toChars (c : Color) : List Char :=
  let body := hexPair c.red ++ hexPair c.green ++ hexPair c.blue
  '#' :: (if c.alpha == 255 then body else hexPair c.alpha ++ body)

@[inherit_doc toChars]
def toText (c : Color) : String := String.ofList c.toChars

/-! ## Reading -/

/-- A component of two characters: two digits, or a plus sign and one digit. -/
def component? (first second : Char) : Option UInt8 :=
  if first == '+' then (hexValue? second).map UInt8.ofNat
  else do
    let high ← hexValue? first
    let low ← hexValue? second
    return UInt8.ofNat (16 * high + low)

/-- A component of one digit, which is doubled. -/
def shortComponent? (digit : Char) : Option UInt8 :=
  (hexValue? digit).map fun n => UInt8.ofNat (17 * n)

/-- Read hexadecimal digits behind any number of `#`: three short components, three components, or
the opacity and three components. -/
def ofHexChars? (chars : List Char) : Option Color := do
  match (trimChars chars).dropWhile (· == '#') with
  | [r, g, b] =>
    return rgb (← shortComponent? r) (← shortComponent? g) (← shortComponent? b)
  | [r1, r2, g1, g2, b1, b2] =>
    return rgb (← component? r1 r2) (← component? g1 g2) (← component? b1 b2)
  | [a1, a2, r1, r2, g1, g2, b1, b2] =>
    let alpha ← component? a1 a2
    return ⟨← component? r1 r2, ← component? g1 g2, ← component? b1 b2, alpha⟩
  | _ => none

/-- Read hexadecimal digits. -/
def ofHex? (text : String) : Option Color := ofHexChars? text.toList

/-- Split a text at the commas. -/
def splitCommas : List Char → List (List Char)
  | [] => [[]]
  | c :: rest =>
    if c == ',' then [] :: splitCommas rest
    else
      match splitCommas rest with
      | part :: parts => (c :: part) :: parts
      | [] => [[c]]

/-- A decimal component up to 255; a plus sign in front is allowed. -/
def decimalComponent? (chars : List Char) : Option UInt8 :=
  let digits := match trimChars chars with
    | '+' :: rest => rest
    | rest => rest
  if digits.isEmpty || !digits.all Char.isDigit || 255 < digitsValue digits then none
  else some (UInt8.ofNat (digitsValue digits))

/-- Read `rgb(r, g, b)`; the word is all small or all capital. -/
def ofFunction? (chars : List Char) : Option Color := do
  let word := chars.take 4
  if word != ['r', 'g', 'b', '('] && word != ['R', 'G', 'B', '('] then none
  let inner := chars.drop 4
  if inner.getLast? != some ')' then none
  match splitCommas inner.dropLast with
  | [r, g, b] =>
    return rgb (← decimalComponent? r) (← decimalComponent? g) (← decimalComponent? b)
  | _ => none

/-- The named colors, in small letters. -/
def named : List (String × Color) := [
  ("black", black), ("white", rgb 255 255 255), ("red", rgb 255 0 0), ("green", rgb 0 128 0),
  ("blue", rgb 0 0 255), ("yellow", rgb 255 255 0), ("orange", rgb 255 165 0),
  ("gray", rgb 128 128 128), ("grey", rgb 128 128 128), ("lightgray", rgb 211 211 211),
  ("lightgrey", rgb 211 211 211), ("transparent", ⟨0, 0, 0, 0⟩)]

/-- Read a color in any of its forms. -/
def readChars? (chars : List Char) : Option Color :=
  let body := trimChars chars
  let lowered := asciiLower body
  if body.head? == some '#' then ofHexChars? body
  else if lowered.take 4 == ['r', 'g', 'b', '('] then ofFunction? body
  else
    match named.lookup (String.ofList lowered) with
    | some color => some color
    | none => ofHexChars? body

@[inherit_doc readChars?]
def read? (text : String) : Option Color := readChars? text.toList

/-- What is said of a text that is no color. -/
def refusal (text : String) : String := "Invalid color: " ++ text

end Color

end BandedReport
