import BandedReport.Amount.Fixed

/-!
# Number patterns

A pattern such as `#,##0.00`, `0.0%` or `0000` has a core that runs from the first to the last of
the characters `#`, `0`, `,` and `.`. Text around the core is copied; a percent sign in it scales
the number by a hundred. In the core, `0` asks for a digit, `#` allows one after the point, and a
comma before the point asks for thousands separators.
-/

namespace BandedReport.Amount

/-- The characters that make up the core of a pattern. -/
def isCoreChar (c : Char) : Bool := c == '#' || c == '0' || c == ',' || c == '.'

/-- A number pattern with a core, read. -/
structure Pattern where
  /-- The text in front of the core. -/
  before : List Char
  /-- The text behind the core. -/
  after : List Char
  /-- Whether the number is scaled by a hundred. -/
  percent : Bool
  /-- Whether the integer part gets thousands separators. -/
  grouped : Bool
  /-- The least number of digits before the point. -/
  minWhole : Nat
  /-- The least number of digits after the point. -/
  minFraction : Nat
  /-- The largest number of digits after the point. -/
  maxFraction : Nat
deriving DecidableEq

namespace Pattern

/-- Split a text around its core: what stands before it, the core, and what stands after it. -/
def split (chars : List Char) : List Char × List Char × List Char :=
  let before := chars.takeWhile (!isCoreChar ·)
  let rest := chars.dropWhile (!isCoreChar ·)
  let after := (rest.reverse.takeWhile (!isCoreChar ·)).reverse
  let core := (rest.reverse.dropWhile (!isCoreChar ·)).reverse
  (before, core, after)

/-- Read a pattern; `none` when it has no core. -/
def ofChars? (chars : List Char) : Option Pattern :=
  let (before, core, after) := split chars
  if core.isEmpty then none
  else
    let (whole, fraction) := splitPoint core
    let fraction := fraction.getD []
    some {
      before, after
      percent := before.contains '%' || after.contains '%'
      grouped := whole.contains ','
      minWhole := whole.count '0'
      minFraction := fraction.count '0'
      maxFraction := fraction.countP (fun c => c == '0' || c == '#') }

/-- Drop zeros at the end while more than `least` digits remain. -/
def dropTrailingZeros (least : Nat) (digits : List Char) : List Char :=
  let required := digits.take least
  let optional := digits.drop least
  required ++ (optional.reverse.dropWhile (· == '0')).reverse

/-- The integer part: padded with zeros to its least width, left out when it is a lone zero that
the pattern does not ask for and a fraction follows. -/
def wholeDigits (p : Pattern) (whole fraction : List Char) : List Char :=
  let digits :=
    if whole == ['0'] && p.minWhole == 0 && !fraction.isEmpty then [] else whole
  let padded := List.replicate (p.minWhole - digits.length) '0' ++ digits
  if p.grouped then groupThousands padded else padded

/-- Write a number by the pattern. -/
def applyTo (p : Pattern) (x : Float) : List Char :=
  let value := if p.percent then x * 100.0 else x
  let rounded := roundHalfUp value p.maxFraction
  let (whole, fraction) := splitPoint (fixedMagnitude p.maxFraction rounded)
  let fraction := dropTrailingZeros p.minFraction (fraction.getD [])
  let point := if fraction.isEmpty then [] else '.' :: fraction
  let body := p.before ++ p.wholeDigits whole fraction ++ point ++ p.after
  if rounded < 0 then '-' :: body else body

end Pattern

/-- Write a number by a pattern text; a text without a core follows the plain number. -/
def patterned (x : Float) (pattern : String) : String :=
  match Pattern.ofChars? pattern.toList with
  | some p => String.ofList (p.applyTo x)
  | none => formatNumber x ++ pattern

end BandedReport.Amount
