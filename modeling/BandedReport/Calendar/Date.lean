/-!
# Dates and times of day

Dates of the Gregorian calendar, extended to all years, and times of day to the nanosecond. The
fields of both are valid by construction. Days are counted by `Date.dayNumber`, so that the
difference of two dates is a difference of integers.
-/

namespace BandedReport

namespace Calendar

/-- A year is a leap year when four divides it, unless a hundred does and four hundred does not. -/
def isLeapYear (year : Int) : Bool :=
  year % 4 == 0 && (year % 100 != 0 || year % 400 == 0)

/-- The number of days of a month; zero for a number that names none. -/
def daysInMonth (year : Int) : (month : Nat) → Nat
  | 2 => if isLeapYear year then 29 else 28
  | 4 | 6 | 9 | 11 => 30
  | 1 | 3 | 5 | 7 | 8 | 10 | 12 => 31
  | _ => 0

/-- The first year that a date may have. -/
def firstYear : Int := -262143

/-- The last year that a date may have. -/
def lastYear : Int := 262142

end Calendar

/-- A day of the calendar. -/
structure Date where
  year : Int
  month : Nat
  day : Nat
  year_mem : Calendar.firstYear ≤ year ∧ year ≤ Calendar.lastYear
  day_mem : 1 ≤ day ∧ day ≤ Calendar.daysInMonth year month
deriving DecidableEq

/-- A time of day. A leap second is second 59 with a full second of nanoseconds more. -/
structure TimeOfDay where
  hour : Nat
  minute : Nat
  second : Nat
  nanosecond : Nat
  hour_lt : hour < 24
  minute_lt : minute < 60
  second_lt : second < 60
  nanosecond_lt : nanosecond < 1000000000 ∨ (second = 59 ∧ nanosecond < 2000000000)
deriving DecidableEq

/-- A date with a time of day, in no particular time zone. -/
structure DateTime where
  date : Date
  time : TimeOfDay
deriving DecidableEq

/-- The date with the given fields, if there is one. -/
def Date.ofFields? (year : Int) (month day : Nat) : Option Date :=
  if hy : Calendar.firstYear ≤ year ∧ year ≤ Calendar.lastYear then
    if hd : 1 ≤ day ∧ day ≤ Calendar.daysInMonth year month then
      some ⟨year, month, day, hy, hd⟩
    else none
  else none

/-- The time of day with the given fields, if there is one. -/
def TimeOfDay.ofFields? (hour minute second : Nat) (nanosecond : Nat) : Option TimeOfDay :=
  if hh : hour < 24 then
    if hm : minute < 60 then
      if hs : second < 60 then
        if hn : nanosecond < 1000000000 ∨ (second = 59 ∧ nanosecond < 2000000000) then
          some ⟨hour, minute, second, nanosecond, hh, hm, hs, hn⟩
        else none
      else none
    else none
  else none

/-- The beginning of the day. -/
def TimeOfDay.midnight : TimeOfDay :=
  ⟨0, 0, 0, 0, by decide, by decide, by decide, by decide⟩

/-- The time without its fraction of a second. -/
def TimeOfDay.wholeSeconds (t : TimeOfDay) : TimeOfDay :=
  ⟨t.hour, t.minute, t.second, 0, t.hour_lt, t.minute_lt, t.second_lt, .inl (by decide)⟩

/-- Hour, minute and second are all zero. -/
def TimeOfDay.isMidnight (t : TimeOfDay) : Bool :=
  t.hour == 0 && t.minute == 0 && t.second == 0

/-- The beginning of the day of a date and time. -/
def DateTime.startOfDay (d : DateTime) : DateTime := { d with time := .midnight }

/-- The date and time without the fraction of a second. -/
def DateTime.wholeSeconds (d : DateTime) : DateTime := { d with time := d.time.wholeSeconds }

/-- The date and time with the given fields, if there is one. -/
def DateTime.ofFields? (year : Int) (month day hour minute second nanosecond : Nat) :
    Option DateTime := do
  let date ← Date.ofFields? year month day
  let time ← TimeOfDay.ofFields? hour minute second nanosecond
  return { date, time }

/-- Days since 1 March of the year 0. Years are counted from March, so that the leap day comes
last and the days before a month do not depend on the year. -/
def Date.dayNumber (d : Date) : Int :=
  let year := if d.month ≤ 2 then d.year - 1 else d.year
  let month : Int := if d.month ≤ 2 then d.month + 9 else (d.month : Int) - 3
  365 * year + year / 4 - year / 100 + year / 400 + (153 * month + 2) / 5 + d.day - 1

/-- The date with the given day number, if its year is in range. -/
def Date.ofDayNumber? (n : Int) : Option Date :=
  let era := n / 146097
  let dayOfEra := n % 146097
  let yearOfEra := (dayOfEra - dayOfEra / 1460 + dayOfEra / 36524 - dayOfEra / 146096) / 365
  let dayOfYear := dayOfEra - (365 * yearOfEra + yearOfEra / 4 - yearOfEra / 100)
  let shifted := (5 * dayOfYear + 2) / 153
  let day := dayOfYear - (153 * shifted + 2) / 5 + 1
  let month := if shifted < 10 then shifted + 3 else shifted - 9
  let year := yearOfEra + era * 400
  Date.ofFields? (if month ≤ 2 then year + 1 else year) month.toNat day.toNat

end BandedReport
