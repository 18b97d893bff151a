import BandedReport.Calendar.Date
import BandedReport.Decimal.Text
import BandedReport.Text.Blank
import BandedReport.Text.CharClass

/-!
# Date texts

How dates are shown, how they are written in documents, how they are formatted by a pattern, and
how they are read from text.

* `DateTime.displayChars`: `2024-03-09`, with ` 08:30:15` unless the time is midnight;
* `DateTime.isoChars`: `2024-03-09T08:30:15`, with a fraction when there is one;
* `DateTime.formatChars`: the tokens `yyyy yy MM dd HH mm ss` replaced, other text copied;
* `DateTime.readChars?`: a date with `-`, `/` or `.` between its fields, an optional time, and
  anything after that.
-/

namespace BandedReport

/-- A number padded with zeros to a width. -/
def padded (width n : Nat) : List Char :=
  let digits := digitsOf n
  List.replicate (width - digits.length) '0' ++ digits

/-- Years from 0 to 9999 have four digits; others have a sign and at least four. -/
def yearChars (year : Int) : List Char :=
  if year < 0 then '-' :: padded 4 year.natAbs
  else if 9999 < year then '+' :: padded 4 year.natAbs
  else padded 4 year.natAbs

namespace Date

/-- Year, month and day with hyphens between them. -/
def isoChars (d : Date) : List Char :=
  yearChars d.year ++ '-' :: padded 2 d.month ++ '-' :: padded 2 d.day

end Date

namespace TimeOfDay

/-- Hour, minute and second with colons between them; a leap second is second 60. -/
def clockChars (t : TimeOfDay) : List Char :=
  let second := t.second + t.nanosecond / 1000000000
  padded 2 t.hour ++ ':' :: padded 2 t.minute ++ ':' :: padded 2 second

/-- The fraction of a second in three, six or nine digits, nothing when it is zero. -/
def fractionChars (t : TimeOfDay) : List Char :=
  let n := t.nanosecond % 1000000000
  if n == 0 then []
  else if n % 1000000 == 0 then '.' :: padded 3 (n / 1000000)
  else if n % 1000 == 0 then '.' :: padded 6 (n / 1000)
  else '.' :: padded 9 n

end TimeOfDay

namespace DateTime

/-- The text shown for a date: the time is left out at midnight, fractions always. -/
def displayChars (d : DateTime) : List Char :=
  if d.time.isMidnight then d.date.isoChars
  else d.date.isoChars ++ ' ' :: d.time.clockChars

/-- The text of a date in a document. -/
def isoChars (d : DateTime) : List Char :=
  d.date.isoChars ++ 'T' :: d.time.clockChars ++ d.time.fractionChars

/-! ## Patterns -/

/-- The text of a four-digit year: the sign of a negative year counts toward the width. -/
def fourDigitYear (year : Int) : List Char :=
  if year < 0 then '-' :: padded 3 year.natAbs else padded 4 year.natAbs

/-- Replace the date tokens of a pattern, the longest first, and copy all other text. -/
def formatChars (d : DateTime) : (pattern : List Char) → List Char
  | 'y' :: 'y' :: 'y' :: 'y' :: rest => fourDigitYear d.date.year ++ formatChars d rest
  | 'y' :: 'y' :: rest => padded 2 (d.date.year % 100).toNat ++ formatChars d rest
  | 'M' :: 'M' :: rest => padded 2 d.date.month ++ formatChars d rest
  | 'd' :: 'd' :: rest => padded 2 d.date.day ++ formatChars d rest
  | 'H' :: 'H' :: rest => padded 2 d.time.hour ++ formatChars d rest
  | 'm' :: 'm' :: rest => padded 2 d.time.minute ++ formatChars d rest
  | 's' :: 's' :: rest => padded 2 d.time.second ++ formatChars d rest
  | c :: rest => c :: formatChars d rest
  | [] => []

@[inherit_doc formatChars]
def format (d : DateTime) (pattern : String) : String :=
  String.ofList (d.formatChars pattern.toList)

/-- Does a pattern hold a date token? -/
def isPattern : List Char → Bool
  | a :: b :: rest => (a == b && "yMdHms".toList.contains a) || isPattern (b :: rest)
  | _ => false

/-- The pattern used when none is given. -/
def defaultPattern : String := "yyyy-MM-dd"

/-! ## Reading -/

/-- Take from `least` to `most` decimal digits, as many as there are. -/
def takeDigits (least most : Nat) (chars : List Char) :
    Option (List Char × List Char) :=
  let digits := (chars.take most).takeWhile CharClass.isDecimalDigit
  if digits.length < least then none else some (digits, chars.drop digits.length)

/-- Take a character of a class. -/
def takeOne (accept : Char → Bool) : List Char → Option (List Char)
  | c :: rest => if accept c then some rest else none
  | [] => none

/-- The number of a run of digits; digits of other scripts have none. -/
def asciiValue? (digits : List Char) : Option Nat :=
  if digits.all Char.isDigit then some (digitsValue digits) else none

/-- The digits of a clock time that follows a date: a `T` or blanks, hour and minute, and a second
if there is one. -/
def clockDigits? (chars : List Char) :
    Option (List Char × List Char × List Char) := do
  let separator (c : Char) : Bool := c == 'T' || isBlank c
  let rest ← takeOne separator chars
  let (hour, rest) ← takeDigits 1 2 (rest.dropWhile separator)
  let rest ← takeOne (· == ':') rest
  let (minute, rest) ← takeDigits 2 2 rest
  let second := ((takeOne (· == ':') rest).bind (takeDigits 2 2)).map (·.1)
  return (hour, minute, second.getD ['0'])

/-- Read a date from the beginning of a text: blanks, a year of four digits, month and day of one
or two, separated by `-`, `/` or `.`, then perhaps a time. -/
def readChars? (chars : List Char) : Option DateTime := do
  let separator (c : Char) : Bool := c == '-' || c == '/' || c == '.'
  let (year, rest) ← takeDigits 4 4 (trimStart chars)
  let (month, rest) ← takeDigits 1 2 (← takeOne separator rest)
  let (day, rest) ← takeDigits 1 2 (← takeOne separator rest)
  let date ← Date.ofFields? (← asciiValue? year) (← asciiValue? month) (← asciiValue? day)
  match clockDigits? rest with
  | none => return { date, time := .midnight }
  | some (hour, minute, second) =>
    let time ← TimeOfDay.ofFields? (← asciiValue? hour) (← asciiValue? minute)
      (← asciiValue? second) 0
    return { date, time }

@[inherit_doc readChars?]
def read? (text : String) : Option DateTime := readChars? text.toList

end DateTime

end BandedReport
