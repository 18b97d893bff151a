import BandedReport.Decimal.Text

/-!
# The texts of numbers

A finite double that is not negative is printed with digits, perhaps with a point among them. A
negative one is printed as its magnitude with a minus sign in front.
-/

namespace BandedReport

/-! ## §1 Numerals -/

/-- One or more decimal digits. -/
def IsDigits (chars : List Char) : Prop := chars ≠ [] ∧ ∀ c ∈ chars, c.isDigit = true

/-- Digits, perhaps with a point and more digits behind them. -/
inductive Numeral : List Char → Prop where
  | whole {digits : List Char} : IsDigits digits → Numeral digits
  | point {whole fraction : List Char} :
      IsDigits whole → IsDigits fraction → Numeral (whole ++ '.' :: fraction)

/-- What holds of the ten digits holds of every digit. -/
theorem forall_isDigit {p : Char → Prop} (h : ∀ k < 10, p (Char.ofNat (48 + k))) {c : Char}
    (hc : c.isDigit = true) : p c := by
  obtain ⟨hlow, hhigh⟩ := Char.isDigit_iff_toNat.mp hc
  have hlow : 48 ≤ c.toNat := hlow
  have hhigh : c.toNat ≤ 57 := hhigh
  have hdigit := h (c.toNat - 48) (by omega)
  rwa [Nat.add_sub_cancel' hlow, Char.ofNat_toNat] at hdigit

theorem isDigits_digitsOf (n : Nat) : IsDigits (digitsOf n) :=
  ⟨Nat.toDigits_ne_nil, fun _ hc =>
    Nat.isDigit_of_mem_toDigits (Nat.zero_lt_succ 9) (Nat.le_refl 10) hc⟩

theorem digitsValue_digitsOf (n : Nat) : digitsValue (digitsOf n) = n :=
  Nat.ofDigitChars_ten_toDigits

theorem isDigit_of_mem_replicate {n : Nat} {c : Char} (h : c ∈ List.replicate n '0') :
    c.isDigit = true := by
  rw [List.eq_of_mem_replicate h]
  rfl

/-- Digits behind a point, which stands there only in front of digits. -/
def pointed (fraction : List Char) : List Char := if fraction.isEmpty then [] else '.' :: fraction

theorem pointed_of_ne_nil {fraction : List Char} (h : fraction ≠ []) :
    pointed fraction = '.' :: fraction := by
  rw [pointed, List.isEmpty_eq_false_iff.mpr h, if_neg Bool.false_ne_true]

/-- To move the point is to put zeros in front until a digit stands before the point, and to cut the
digits in two. -/
theorem exists_shiftPoint_eq {digits : List Char} (h : IsDigits digits) (places : Nat) :
    ∃ whole fraction, Decimal.shiftPoint digits places = whole ++ pointed fraction ∧
      whole ++ fraction = List.replicate (places + 1 - digits.length) '0' ++ digits ∧
      IsDigits whole ∧ (∀ c ∈ fraction, c.isDigit = true) ∧ fraction.length = places := by
  -- With zeros in front there are digits for all places and one more.
  have hlength : places + 1 ≤
      (List.replicate (places + 1 - digits.length) '0' ++ digits).length := by
    simp only [List.length_append, List.length_replicate]
    omega
  have hdigit : ∀ c ∈ List.replicate (places + 1 - digits.length) '0' ++ digits,
      c.isDigit = true := by
    intro c hc
    rcases List.mem_append.mp hc with hc | hc
    · exact isDigit_of_mem_replicate hc
    · exact h.2 c hc
  simp only [Decimal.shiftPoint]
  generalize List.replicate (places + 1 - digits.length) '0' ++ digits = padded at *
  -- The point is set in front of the last places.
  refine ⟨padded.take (padded.length - places), padded.drop (padded.length - places), ?_,
    List.take_append_drop .., ⟨?_, fun c hc => hdigit c (List.mem_of_mem_take hc)⟩,
    fun c hc => hdigit c (List.mem_of_mem_drop hc), ?_⟩
  · rcases Nat.eq_zero_or_pos places with rfl | hpos
    · simp [pointed]
    · have hne : padded.drop (padded.length - places) ≠ [] := by
        rw [← List.length_pos_iff, List.length_drop]
        omega
      rw [if_neg (by simpa using Nat.ne_of_gt hpos), pointed_of_ne_nil hne]
  · rw [← List.length_pos_iff, List.length_take]
    omega
  · rw [List.length_drop]
    omega

/-- With its point moved, a text of digits stays a numeral. -/
theorem numeral_shiftPoint {digits : List Char} (h : IsDigits digits) {places : Nat}
    (hplaces : 0 < places) : Numeral (Decimal.shiftPoint digits places) := by
  obtain ⟨whole, fraction, htext, -, hwhole, hfraction, hlength⟩ := exists_shiftPoint_eq h places
  have hne : fraction ≠ [] := List.length_pos_iff.mp (hlength ▸ hplaces)
  rw [htext, pointed_of_ne_nil hne]
  exact .point hwhole ⟨hne, hfraction⟩

theorem numeral_plainMagnitude (d : Decimal) : Numeral d.plainMagnitude := by
  unfold Decimal.plainMagnitude
  split
  · exact .whole (isDigits_digitsOf 0)
  · split
    · refine .whole ⟨by simp [digitsOf], fun c hc => ?_⟩
      rcases List.mem_append.mp hc with hc | hc
      · exact (isDigits_digitsOf _).2 c hc
      · exact isDigit_of_mem_replicate hc
    · refine numeral_shiftPoint (isDigits_digitsOf _) ?_
      omega

/-! ## §2 Printed doubles -/

/-- What is printed of the magnitude of a finite value. -/
def Binary.magnitudeChars (v : Binary) : List Char :=
  if v.isIntegral && (v.integerPart.natAbs < Nat.pow 10 15 : Bool) then
    digitsOf v.integerPart.natAbs
  else (v.shortest .up).plainMagnitude

theorem Binary.numeral_magnitudeChars (v : Binary) : Numeral v.magnitudeChars := by
  unfold magnitudeChars
  split
  · exact .whole (isDigits_digitsOf _)
  · exact numeral_plainMagnitude _

theorem Binary.shortest_negative (tie : Tie) (v : Binary) :
    (v.shortest tie).negative = v.negative := by
  unfold shortest
  split <;> rfl

theorem Binary.shortest_withSign (tie : Tie) (v : Binary) (negative : Bool) :
    ({ v with negative } : Binary).shortest tie = { v.shortest tie with negative } := by
  unfold shortest
  split <;> rfl

theorem Binary.natAbs_integerPart (v : Binary) :
    v.integerPart.natAbs = v.fraction.1 / v.fraction.2 := by
  show (if v.negative then -((v.fraction.1 / v.fraction.2 : Nat) : Int)
    else ((v.fraction.1 / v.fraction.2 : Nat) : Int)).natAbs = _
  split
  · rw [Int.natAbs_neg, Int.natAbs_natCast]
  · rw [Int.natAbs_natCast]

theorem Binary.integerPart_nonneg {v : Binary} (h : v.negative = false) : 0 ≤ v.integerPart := by
  show 0 ≤ if v.negative then _ else ((v.fraction.1 / v.fraction.2 : Nat) : Int)
  rw [h, if_neg Bool.false_ne_true]
  exact Int.natCast_nonneg _

/-- An integral value below zero has an integer part below zero. -/
theorem Binary.integerPart_neg {v : Binary} (h : v.negative = true) (hpos : 0 < v.mantissa)
    (hintegral : v.isIntegral = true) : v.integerPart < 0 := by
  -- The numerator has the mantissa in it.
  have hnum : 0 < v.fraction.1 := by
    unfold fraction
    split
    · exact Nat.mul_pos hpos (Nat.two_pow_pos _)
    · exact hpos
  have hmod : v.fraction.1 % v.fraction.2 = 0 := by
    simpa [isIntegral] using hintegral
  -- The mantissa is not zero and the division leaves nothing over.
  have hquotient : v.fraction.1 / v.fraction.2 ≠ 0 := by
    intro hzero
    have hdivmod := Nat.mod_add_div v.fraction.1 v.fraction.2
    rw [hmod, hzero] at hdivmod
    omega
  show (if v.negative then -((v.fraction.1 / v.fraction.2 : Nat) : Int) else _) < 0
  rw [h, if_pos rfl]
  exact Int.neg_neg_of_pos (Int.natCast_pos.mpr (Nat.pos_of_ne_zero hquotient))

/-- The sign does not change what is printed of the magnitude. -/
theorem Binary.magnitudeChars_withSign (v : Binary) (negative : Bool) :
    ({ v with negative } : Binary).magnitudeChars = v.magnitudeChars := by
  have hpart : ({ v with negative } : Binary).integerPart.natAbs = v.integerPart.natAbs := by
    rw [natAbs_integerPart, natAbs_integerPart]
    rfl
  simp only [magnitudeChars, hpart, shortest_withSign]
  rfl

theorem formatNumberChars_of_nonneg {x : Float} {v : Binary} (hx : Binary.ofFloat x = .finite v)
    (hv : v.negative = false) : formatNumberChars x = v.magnitudeChars := by
  have hpart : ¬ v.integerPart < 0 := Int.not_lt.mpr (Binary.integerPart_nonneg hv)
  have hplain : plainChars x = (v.shortest .up).plainMagnitude := by
    simp only [plainChars, hx, Decimal.plain, Binary.shortest_negative, hv, Bool.false_eq_true,
      if_false]
  simp only [formatNumberChars, hx, hpart, if_false, hplain, Binary.magnitudeChars]

theorem formatNumberChars_of_neg {x : Float} {v : Binary} (hx : Binary.ofFloat x = .finite v)
    (hv : v.negative = true) (hpos : 0 < v.mantissa) :
    formatNumberChars x = '-' :: v.magnitudeChars := by
  have hpart : v.isIntegral = true → v.integerPart < 0 := Binary.integerPart_neg hv hpos
  have hplain : plainChars x = '-' :: (v.shortest .up).plainMagnitude := by
    simp only [plainChars, hx, Decimal.plain, Binary.shortest_negative, hv, if_true]
  simp only [formatNumberChars, hx, hplain, Binary.magnitudeChars]
  -- An integral value is printed by its integer part, which has the sign of the value.
  cases hintegral : v.isIntegral with
  | false => simp
  | true =>
    simp only [hpart hintegral, if_true]
    split <;> rfl

end BandedReport
