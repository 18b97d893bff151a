import BandedReport.Scalar
import BandedReport.Proofs.Decimal.FixedPlaces

/-!
# Reading written dates

A date is shown, written in documents and formatted by a pattern in different ways. Each of them
begins with the date and a clock time, in fields of a fixed width, and that is as far as the reader
looks: it gives the date back without the fraction of a second.

* `takeDigits_padded` is the step of the reader over a field;
* `DateTime.readChars?_date` and `DateTime.readChars?_clock` put the fields together;
* `DateTime.read?_display`, `DateTime.read?_iso` and `DateTime.read?_format` are about the three
  texts of a date.
-/

namespace BandedReport

/-! ## §1 Fields of a fixed width -/

theorem isDigit_padded {width n : Nat} : ∀ c ∈ padded width n, c.isDigit = true := by
  intro c hc
  rcases List.mem_append.mp hc with hc | hc
  · exact isDigit_of_mem_replicate hc
  · exact (isDigits_digitsOf n).2 c hc

theorem digitsValue_padded (width n : Nat) : digitsValue (padded width n) = n := by
  rw [padded, digitsValue_zeros_append, digitsValue_digitsOf]

theorem length_padded {width n : Nat} (hwidth : 0 < width) (h : n < 10 ^ width) :
    (padded width n).length = width := by
  have hdigits := (length_digitsOf_le_iff hwidth).mpr h
  rw [padded, List.length_append, List.length_replicate]
  exact Nat.sub_add_cancel hdigits

/-- What is dropped from the front of a text stops at a field, if digits are not dropped. -/
theorem dropWhile_padded {p : Char → Bool} (hp : ∀ k < 10, p (Char.ofNat (48 + k)) = false)
    {width n : Nat} (hwidth : 0 < width) (h : n < 10 ^ width) (rest : List Char) :
    (padded width n ++ rest).dropWhile p = padded width n ++ rest := by
  obtain ⟨c, tail, hpadded⟩ := List.exists_cons_of_length_pos (by rwa [length_padded hwidth h])
  have hc : p c = false := forall_isDigit (p := fun c => p c = false) hp
    (isDigit_padded c (hpadded ▸ List.mem_cons_self))
  rw [hpadded, List.cons_append]
  exact List.dropWhile_cons_of_neg (by simp [hc])

namespace DateTime

/-! ## §2 Steps of the reader -/

/-- A field of as many digits as the reader takes is taken as it is. -/
theorem takeDigits_padded {least width n : Nat} (hleast : least ≤ width) (hwidth : 0 < width)
    (h : n < 10 ^ width) (rest : List Char) :
    takeDigits least width (padded width n ++ rest) = some (padded width n, rest) := by
  have hlength := length_padded hwidth h
  have hdigits : (padded width n).takeWhile CharClass.isDecimalDigit = padded width n := by
    refine List.takeWhile_eq_self_iff.mpr fun c hc => ?_
    rw [CharClass.isDecimalDigit, isDigit_padded c hc, Bool.true_or]
  rw [takeDigits, List.take_left' hlength, hdigits, if_neg (by omega), List.drop_left]

theorem asciiValue?_padded (width n : Nat) : asciiValue? (padded width n) = some n := by
  rw [asciiValue?, if_pos (List.all_eq_true.mpr isDigit_padded), digitsValue_padded]

/-- The fields of a clock time that is no leap second. -/
theorem clockChars_append {t : TimeOfDay} (ht : t.nanosecond < 1000000000) (rest : List Char) :
    t.clockChars ++ rest =
      padded 2 t.hour ++ ':' :: (padded 2 t.minute ++ ':' :: (padded 2 t.second ++ rest)) := by
  rw [TimeOfDay.clockChars, Nat.div_eq_of_lt ht]
  simp

theorem takeOne_cons {accept : Char → Bool} {c : Char} (h : accept c = true) (rest : List Char) :
    takeOne accept (c :: rest) = some rest := by
  rw [takeOne, if_pos h]

/-- A clock time is read behind a `T` or a blank, whatever follows it. -/
theorem clockDigits?_clockChars {separator : Char}
    (hseparator : (separator == 'T' || isBlank separator) = true) {t : TimeOfDay}
    (ht : t.nanosecond < 1000000000) (rest : List Char) :
    clockDigits? (separator :: (t.clockChars ++ rest)) =
      some (padded 2 t.hour, padded 2 t.minute, padded 2 t.second) := by
  -- Each field fits two digits, so it is read back from what it is padded to.
  have hhour : t.hour < 10 ^ 2 := t.hour_lt.trans (by decide)
  have hminute : t.minute < 10 ^ 2 := t.minute_lt.trans (by decide)
  have hsecond : t.second < 10 ^ 2 := t.second_lt.trans (by decide)
  -- The characters between the fields are taken one at a time.
  have hfirst : ∀ rest, takeOne (fun c => c == 'T' || isBlank c) (separator :: rest) = some rest :=
    takeOne_cons hseparator
  have hcolon : ∀ rest, takeOne (· == ':') (':' :: rest) = some rest := takeOne_cons rfl
  have hdrop := dropWhile_padded (p := fun c => c == 'T' || isBlank c) (by decide)
    Nat.zero_lt_two hhour
  have htake : ∀ {least n}, least ≤ 2 → n < 10 ^ 2 → ∀ rest,
      takeDigits least 2 (padded 2 n ++ rest) = some (padded 2 n, rest) :=
    fun hleast h => takeDigits_padded hleast Nat.zero_lt_two h
  have hone : 1 ≤ 2 := by decide
  rw [clockChars_append ht, clockDigits?]
  simp only [bind, Option.bind_some, hfirst, hdrop, htake hone hhour, hcolon,
    htake (Nat.le_refl 2) hminute, htake (Nat.le_refl 2) hsecond, Option.map_some,
    Option.getD_some, pure]

/-! ## §3 Dates and times -/

theorem daysInMonth_le (year : Int) (month : Nat) : Calendar.daysInMonth year month ≤ 31 := by
  unfold Calendar.daysInMonth
  split
  · split <;> decide
  all_goals decide

theorem month_le_of_daysInMonth {year : Int} {month : Nat}
    (h : 0 < Calendar.daysInMonth year month) : month ≤ 12 := by
  unfold Calendar.daysInMonth at h
  split at h <;> omega

/-- A date of a year with four digits, and no leap second. -/
structure IsPlain (d : DateTime) : Prop where
  year_nonneg : 0 ≤ d.date.year
  year_le : d.date.year ≤ 9999
  nanosecond_lt : d.time.nanosecond < 1000000000

/-- The fields of a date of a year with four digits. -/
theorem isoChars_append {d : Date} (hnonneg : 0 ≤ d.year) (hle : d.year ≤ 9999)
    (rest : List Char) :
    d.isoChars ++ rest =
      padded 4 d.year.toNat ++ '-' :: (padded 2 d.month ++ '-' :: (padded 2 d.day ++ rest)) := by
  have hyear : yearChars d.year = padded 4 d.year.toNat := by
    rw [yearChars, if_neg (by omega), if_neg (by omega), ← Int.toNat_of_nonneg hnonneg]
    rfl
  rw [Date.isoChars, hyear]
  simp

theorem ofFields?_date (d : Date) : Date.ofFields? d.year d.month d.day = some d := by
  rw [Date.ofFields?, dif_pos d.year_mem, dif_pos d.day_mem]

theorem ofFields?_time (t : TimeOfDay) :
    TimeOfDay.ofFields? t.hour t.minute t.second 0 = some t.wholeSeconds := by
  rw [TimeOfDay.ofFields?, dif_pos t.hour_lt, dif_pos t.minute_lt, dif_pos t.second_lt,
    dif_pos (.inl (by decide))]
  rfl

/-- The date at the clock time that some fields name. -/
def atClock? (d : Date) (clock : List Char × List Char × List Char) : Option DateTime := do
  let time ← TimeOfDay.ofFields? (← asciiValue? clock.1) (← asciiValue? clock.2.1)
    (← asciiValue? clock.2.2) 0
  return ⟨d, time⟩

/-- A date is read from the front of a text, and then perhaps a clock time. -/
theorem readChars?_isoChars {d : Date} (hnonneg : 0 ≤ d.year) (hle : d.year ≤ 9999)
    (rest : List Char) :
    readChars? (d.isoChars ++ rest) =
      (clockDigits? rest).elim (some ⟨d, .midnight⟩) (atClock? d) := by
  -- The year fits four digits, the month and the day two.
  have hyear : d.year.toNat < 10 ^ 4 := by omega
  have hmonth : d.month < 10 ^ 2 :=
    (month_le_of_daysInMonth (d.day_mem.1.trans d.day_mem.2)).trans_lt (by decide)
  have hday : d.day < 10 ^ 2 :=
    (d.day_mem.2.trans (daysInMonth_le d.year d.month)).trans_lt (by decide)
  -- Between the fields stand hyphens, and no blank stands in front.
  have hhyphen : ∀ rest, takeOne (fun c => c == '-' || c == '/' || c == '.') ('-' :: rest) =
      some rest := takeOne_cons rfl
  have hone : 1 ≤ 2 := by decide
  have hfour : 0 < 4 := by decide
  have hstart : ∀ rest, trimStart (padded 4 d.year.toNat ++ rest) =
      padded 4 d.year.toNat ++ rest := dropWhile_padded (by decide) hfour hyear
  -- The fields are those of a date, so they make up the date again.
  have hdate : Date.ofFields? (d.year.toNat : Int) d.month d.day = some d := by
    rw [Int.toNat_of_nonneg hnonneg, ofFields?_date]
  rw [isoChars_append hnonneg hle, readChars?]
  simp only [bind, Option.bind_some, hstart, hhyphen,
    takeDigits_padded (Nat.le_refl 4) hfour hyear,
    takeDigits_padded hone Nat.zero_lt_two hmonth,
    takeDigits_padded hone Nat.zero_lt_two hday, asciiValue?_padded, hdate, pure]
  cases clockDigits? rest <;> rfl

theorem readChars?_date {d : Date} (hnonneg : 0 ≤ d.year) (hle : d.year ≤ 9999) :
    readChars? d.isoChars = some ⟨d, .midnight⟩ := by
  rw [← List.append_nil d.isoChars, readChars?_isoChars hnonneg hle]
  rfl

theorem readChars?_clock {d : DateTime} (h : d.IsPlain) {separator : Char}
    (hseparator : (separator == 'T' || isBlank separator) = true) (rest : List Char) :
    readChars? (d.date.isoChars ++ separator :: (d.time.clockChars ++ rest)) =
      some d.wholeSeconds := by
  rw [readChars?_isoChars h.year_nonneg h.year_le,
    clockDigits?_clockChars hseparator h.nanosecond_lt, Option.elim_some, atClock?]
  simp only [bind, asciiValue?_padded, Option.bind_some, ofFields?_time, pure, wholeSeconds]

/-! ## §4 The texts of a date -/

variable {d : DateTime}

theorem wholeSeconds_of_isMidnight {t : TimeOfDay} (h : t.isMidnight = true) :
    t.wholeSeconds = .midnight := by
  simp only [TimeOfDay.isMidnight, Bool.and_eq_true, beq_iff_eq] at h
  obtain ⟨⟨hhour, hminute⟩, hsecond⟩ := h
  simp only [TimeOfDay.wholeSeconds, TimeOfDay.midnight, hhour, hminute, hsecond]

/-- The shown text leaves the clock time out at midnight, but for fractions, which are not read. -/
theorem read?_display (h : d.IsPlain) :
    read? (Scalar.date d).display = some d.wholeSeconds := by
  have hdisplay : (Scalar.date d).display = String.ofList d.displayChars := rfl
  rw [read?, hdisplay, String.toList_ofList, displayChars]
  split
  · rename_i hmidnight
    rw [readChars?_date h.year_nonneg h.year_le, wholeSeconds, wholeSeconds_of_isMidnight hmidnight]
  · rw [← List.append_nil d.time.clockChars]
    exact readChars?_clock h (by decide) []

theorem read?_iso (h : d.IsPlain) : read? (String.ofList d.isoChars) = some d.wholeSeconds := by
  rw [read?, String.toList_ofList, isoChars, List.append_assoc, List.cons_append]
  exact readChars?_clock h rfl _

/-- A leap day, and a fraction that is passed over. -/
example : read? "2024-02-29T08:05:09.250" = ofFields? 2024 2 29 8 5 9 0 := by decide +kernel

theorem read?_format (h : d.IsPlain) :
    read? (d.format "yyyy-MM-dd HH:mm:ss") = some d.wholeSeconds := by
  have hyear : fourDigitYear d.date.year = yearChars d.date.year := by
    have hnonneg := h.year_nonneg
    have hle := h.year_le
    rw [fourDigitYear, yearChars, if_neg (by omega), if_neg (by omega), if_neg (by omega)]
  have hformat : d.formatChars "yyyy-MM-dd HH:mm:ss".toList =
      d.date.isoChars ++ ' ' :: (d.time.clockChars ++ []) := by
    rw [clockChars_append h.nanosecond_lt, Date.isoChars, ← hyear]
    simp [formatChars]
  rw [read?, format, String.toList_ofList, hformat]
  exact readChars?_clock h (by decide) []

/-- No pattern has a token for fractions of a second. -/
theorem formatChars_wholeSeconds (d : DateTime) (pattern : List Char) :
    d.wholeSeconds.formatChars pattern = d.formatChars pattern := by
  fun_induction formatChars d pattern <;>
    simp_all [formatChars, wholeSeconds, TimeOfDay.wholeSeconds]

variable {a b : DateTime}

/-- Dates that differ in the fraction of a second are on the same day. -/
theorem date_eq_of_wholeSeconds (h : a.wholeSeconds = b.wholeSeconds) : a.date = b.date :=
  show a.wholeSeconds.date = b.wholeSeconds.date from congrArg DateTime.date h

theorem formatChars_eq_of_wholeSeconds (h : a.wholeSeconds = b.wholeSeconds)
    (pattern : List Char) : a.formatChars pattern = b.formatChars pattern := by
  rw [← a.formatChars_wholeSeconds, h, b.formatChars_wholeSeconds]

end DateTime

end BandedReport
