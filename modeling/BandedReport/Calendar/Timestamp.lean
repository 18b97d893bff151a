import BandedReport.Calendar.Text

/-!
# Timestamps

Instants are written in UTC, for instance `2024-05-01T12:00:00Z`, and read with any offset:
between date and time stands `T`, `t` or a space, the offset is `Z`, `z`, `UTC` or a signed number
of hours and minutes, and blanks are allowed between the parts.
-/

namespace BandedReport

/-- An instant, as its date and time in UTC. -/
structure Timestamp where
  utc : DateTime
deriving DecidableEq

namespace Timestamp

/-- The text of an instant in UTC. -/
def toText (t : Timestamp) : String := String.ofList (t.utc.isoChars ++ ['Z'])

/-! ## Reading -/

/-- Read a number of one to `most` digits, blanks in front of it skipped. -/
private def readField (most : Nat) (chars : List Char) : Option (Nat × List Char) :=
  let rest := trimStart chars
  let digits := (rest.take most).takeWhile Char.isDigit
  if digits.isEmpty then none else some (digitsValue digits, rest.drop digits.length)

/-- Read a year: four digits at most, or a sign and any number of digits. -/
private def readYear (chars : List Char) : Option (Int × List Char) :=
  match trimStart chars with
  | '-' :: rest => (signed rest).map fun (n, rest) => (-(n : Int), rest)
  | '+' :: rest => (signed rest).map fun (n, rest) => ((n : Int), rest)
  | rest => (readField 4 rest).map fun (n, rest) => ((n : Int), rest)
where
  /-- Digits directly behind a sign. -/
  signed (chars : List Char) : Option (Nat × List Char) :=
    let digits := chars.takeWhile Char.isDigit
    if digits.isEmpty then none else some (digitsValue digits, chars.drop digits.length)

/-- Read a separator between two fields, blanks in front of it skipped. -/
private def readMark (mark : Char) (chars : List Char) : Option (List Char) :=
  match trimStart chars with
  | c :: rest => if c == mark then some rest else none
  | [] => none

/-- Read an optional fraction of a second; digits beyond the ninth are skipped. -/
private def readFraction : List Char → Option (Nat × List Char)
  | '.' :: rest =>
    let digits := rest.takeWhile Char.isDigit
    if digits.isEmpty then none
    else
      let kept := digits.take 9
      some (digitsValue kept * Nat.pow 10 (9 - kept.length), rest.drop digits.length)
  | chars => some (0, chars)

/-- Exactly two digits. -/
private def readTwoDigits : List Char → Option (Nat × List Char)
  | a :: b :: rest => if a.isDigit && b.isDigit then some (digitsValue [a, b], rest) else none
  | _ => none

/-- Read an offset from UTC in minutes. -/
private def readOffset (chars : List Char) : Option (Int × List Char) := do
  match chars with
  | 'Z' :: rest | 'z' :: rest => return (0, rest)
  | _ =>
    if asciiLower (chars.take 3) == ['u', 't', 'c'] then return (0, chars.drop 3)
    else
      let (negative, rest) ← match chars with
        | '+' :: rest => some (false, rest)
        | '-' :: rest | '\u2212' :: rest => some (true, rest)
        | _ => none
      let (hours, rest) ← readTwoDigits rest
      let (minutes, rest) ← readTwoDigits (rest.dropWhile fun c => c == ':' || isBlank c)
      if 60 ≤ minutes || 24 ≤ hours then none
      let offset : Int := 60 * hours + minutes
      return (if negative then -offset else offset, rest)

/-- The instant at which clocks `offset` minutes ahead of UTC show a date and time, if its year
is in range. -/
def ofLocal? (date : Date) (time : TimeOfDay) (offset : Int) : Option Timestamp :=
  let minutes : Int := date.dayNumber * 1440 + (60 * time.hour + time.minute : Nat) - offset
  let minuteOfDay := (minutes % 1440).toNat
  match Date.ofDayNumber? (minutes / 1440) with
  | none => none
  | some utcDate =>
    (TimeOfDay.ofFields? (minuteOfDay / 60) (minuteOfDay % 60) time.second time.nanosecond).map
      fun utcTime => ⟨utcDate, utcTime⟩

/-- Read an instant. -/
def read? (text : String) : Option Timestamp := do
  let (year, rest) ← readYear text.toList
  let (month, rest) ← readField 2 (← readMark '-' rest)
  let (day, rest) ← readField 2 (← readMark '-' rest)
  let rest ← match rest with
    | 'T' :: rest | 't' :: rest | ' ' :: rest => some rest
    | _ => none
  let (hour, rest) ← readField 2 rest
  let (minute, rest) ← readField 2 (← readMark ':' rest)
  let (second, rest) ← readField 2 (← readMark ':' rest)
  let (nanosecond, rest) ← readFraction rest
  let (offset, rest) ← readOffset (trimStart rest)
  if !(trimStart rest).isEmpty then none
  let date ← Date.ofFields? year month day
  let time ←
    if second == 60 then TimeOfDay.ofFields? hour minute 59 (1000000000 + nanosecond)
    else TimeOfDay.ofFields? hour minute second nanosecond
  ofLocal? date time offset

end Timestamp

end BandedReport
