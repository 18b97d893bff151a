import BandedReport.Amount.Fixed
import BandedReport.Proofs.Decimal.FixedPlaces

/-!
# The text of amounts with fixed places

An amount with fixed places is a sign, digits and perhaps a point with more digits. The digits are
those of the rounded amount, whatever its sign, so that an amount and its negation differ in the
sign alone. With separators, the digits before the point stand in groups of three, counted from the
point.

* `splitPoint_pointed` takes a text with a point apart;
* `InThousands` says where the separators stand, `inThousands_groupThousands` that they do;
* `fixedChars_abs` is the text of a magnitude.
-/

namespace BandedReport.Amount

/-! ## §1 The decimal point -/

theorem splitPoint_cons_point {whole : List Char} (h : '.' ∉ whole) (fraction : List Char) :
    splitPoint (whole ++ '.' :: fraction) = (whole, some fraction) := by
  have hwhole : ∀ c ∈ whole, (c != '.') = true := fun c hc => by
    simpa using fun hpoint : c = '.' => h (hpoint ▸ hc)
  rw [splitPoint, List.dropWhile_append_of_pos hwhole, List.takeWhile_append_of_pos hwhole]
  simp

theorem splitPoint_of_not_mem {digits : List Char} (h : '.' ∉ digits) :
    splitPoint digits = (digits, none) := by
  have hdigits : digits.dropWhile (· != '.') = [] :=
    List.dropWhile_eq_nil_iff.mpr fun c hc => by
      simpa using fun hpoint : c = '.' => h (hpoint ▸ hc)
  rw [splitPoint, hdigits]

theorem splitPoint_pointed {whole : List Char} (h : '.' ∉ whole) (fraction : List Char) :
    ∃ rest, splitPoint (whole ++ pointed fraction) = (whole, rest) ∧ rest.getD [] = fraction := by
  unfold pointed
  split
  · rename_i hempty
    rw [List.append_nil, splitPoint_of_not_mem h, List.isEmpty_iff.mp hempty]
    exact ⟨none, rfl, rfl⟩
  · exact ⟨some fraction, splitPoint_cons_point h fraction, rfl⟩

theorem point_not_mem {digits : List Char} (h : ∀ c ∈ digits, c.isDigit = true) :
    '.' ∉ digits :=
  fun hmem => absurd (h _ hmem) (by decide)

theorem comma_not_mem {digits : List Char} (h : ∀ c ∈ digits, c.isDigit = true) :
    ',' ∉ digits :=
  fun hmem => absurd (h _ hmem) (by decide)

/-! ## §2 Groups of three -/

/-- The separators stand every three characters from the right, and not in front. -/
inductive InThousands : List Char → Prop where
  /-- Up to three characters have no separator. -/
  | start {digits : List Char} : digits.length ≤ 3 → ',' ∉ digits → InThousands digits
  /-- A separator stands before the last three, if anything does. -/
  | group {front digits : List Char} : InThousands front → front ≠ [] → digits.length = 3 →
      ',' ∉ digits → InThousands (front ++ ',' :: digits)

theorem groupThousands_of_length_le {digits : List Char} (h : digits.length ≤ 3) :
    groupThousands digits = digits := by
  match digits, h with
  | [], _ | [_], _ | [_, _], _ | [_, _, _], _ => rfl

theorem groupThousands_append {front digits : List Char} (hfront : front ≠ [])
    (hdigits : digits.length = 3) :
    groupThousands (front ++ digits) = groupThousands front ++ ',' :: digits := by
  induction front with
  | nil => exact absurd rfl hfront
  | cons c rest ih =>
    rw [List.cons_append, groupThousands, groupThousands]
    rcases List.eq_nil_or_concat' rest with rfl | hrest
    · -- One digit in front of three others: the comma stands behind it.
      have hne : digits.isEmpty = false := by
        rw [List.isEmpty_eq_false_iff, ← List.length_pos_iff]
        omega
      simp [hdigits, hne, groupThousands_of_length_le hdigits.le, groupThousands]
    · -- Three digits more behind a digit do not change whether a comma follows it.
      have hne : rest ≠ [] := by
        obtain ⟨_, _, rfl⟩ := hrest
        simp
      have hsame : (rest ++ digits).length % 3 = rest.length % 3 := by
        rw [List.length_append, hdigits, Nat.add_mod_right]
      have hempty : (rest ++ digits).isEmpty = rest.isEmpty := by
        cases rest with
        | nil => exact absurd rfl hne
        | cons => rfl
      rw [ih hne, hsame, hempty]
      split <;> rfl

theorem groupThousands_ne_nil {digits : List Char} (h : digits ≠ []) :
    groupThousands digits ≠ [] := by
  cases digits with
  | nil => exact absurd rfl h
  | cons c rest =>
    rw [groupThousands]
    split <;> exact List.cons_ne_nil _ _

theorem inThousands_groupThousands {digits : List Char} (h : ',' ∉ digits) :
    InThousands (groupThousands digits) := by
  -- The induction is on the length, three digits being taken off at the right.
  induction hlength : digits.length using Nat.strong_induction_on generalizing digits with
  | _ n ih =>
    rcases Nat.lt_or_ge 3 n with hlarge | hsmall
    · have hsplit : digits = digits.take (n - 3) ++ digits.drop (n - 3) :=
        (List.take_append_drop _ _).symm
      have hfront : (digits.take (n - 3)).length = n - 3 := by
        rw [List.length_take]
        omega
      have hrear : (digits.drop (n - 3)).length = 3 := by
        rw [List.length_drop]
        omega
      have hne : digits.take (n - 3) ≠ [] := List.length_pos_iff.mp (by omega)
      rw [hsplit, groupThousands_append hne hrear]
      exact .group (ih (n - 3) (by omega) (fun hc => h (List.mem_of_mem_take hc)) hfront)
        (groupThousands_ne_nil hne) hrear (fun hc => h (List.mem_of_mem_drop hc))
    · rw [groupThousands_of_length_le (by omega)]
      exact .start (by omega) h

theorem filter_of_not_mem {digits : List Char} (h : ',' ∉ digits) :
    digits.filter (· != ',') = digits :=
  List.filter_eq_self.mpr fun c hc => by simpa using fun hcomma : c = ',' => h (hcomma ▸ hc)

/-- Without the separators, the digits are what they were. -/
theorem filter_groupThousands {digits : List Char} (h : ',' ∉ digits) :
    (groupThousands digits).filter (· != ',') = digits := by
  induction digits with
  | nil => rfl
  | cons c rest ih =>
    obtain ⟨hc, hrest⟩ := not_or.mp (fun hmem => h (List.mem_cons.mpr hmem))
    have hkeep : (c != ',') = true := by simpa using Ne.symm hc
    rw [groupThousands]
    split <;> simp [hkeep, ih hrest]

theorem filter_grouped {digits : List Char} (h : ',' ∉ digits) (grouped : Bool) :
    (if grouped then groupThousands digits else digits).filter (· != ',') = digits := by
  split
  · exact filter_groupThousands h
  · exact filter_of_not_mem h

/-! ## §3 Signs -/

theorem fixedBody_neg (r : Float) (places : ℕ) (grouped : Bool) :
    fixedBody (-r) places grouped = fixedBody r places grouped := by
  rw [fixedBody, fixedBody, fixedMagnitude_neg]

/-- The text of an amount is the text of its magnitude, with a sign where it is rounded below
zero. -/
theorem fixedChars_abs (x : Float) (places : ℕ) (grouped : Bool) :
    fixedChars x.abs places grouped = fixedBody (roundHalfUp x places) places grouped := by
  rw [fixedChars, if_neg (not_roundHalfUp_abs_lt_zero x places)]
  rcases abs_eq_or x with h | h
  · rw [h]
  · rw [h, roundHalfUp_neg, fixedBody_neg]

end BandedReport.Amount
