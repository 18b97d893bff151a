import BandedReport.Proofs.Decimal.Rounding

/-!
# Texts with fixed places

The text of a finite double with fixed places has digits before the point and so many digits behind
it. It is read as the multiple of the last place that is nearest to the double. With few places a
double that was rounded to them is known from its text: where doubles lie closer than such
multiples, the text is that of the multiple; where they do not, each has a text of its own.

* `exists_fixedMagnitude_eq` is the form of the text, `readDecimal_pointed` what it is read as;
* `nearestUnits_eq_of_printedUnits_eq`: rounded numbers with the same digits are the same.
-/

namespace BandedReport

open Float.Model.UnpackedFloat (Sign)

/-! ## §1 Reading digits -/

theorem digitsValue_append (l m : List Char) :
    digitsValue (l ++ m) = digitsValue l * 10 ^ m.length + digitsValue m := by
  have happend : digitsValue (l ++ m) = Nat.ofDigitChars 10 m (digitsValue l) :=
    Nat.ofDigitChars_append 0
  rw [happend, Nat.ofDigitChars_eq_ofDigitChars_zero, Nat.mul_comm]
  rfl

theorem digitsValue_zeros (n : ℕ) : digitsValue (List.replicate n '0') = 0 :=
  Nat.ofDigitChars_replicate_zero

theorem digitsValue_zeros_append (n : ℕ) (digits : List Char) :
    digitsValue (List.replicate n '0' ++ digits) = digitsValue digits := by
  rw [digitsValue_append, digitsValue_zeros, Nat.zero_mul, Nat.zero_add]

/-- Digits with a point among them are read as the digits, the exponent counting those behind the
point. -/
theorem readDecimal_pointed {whole fraction : List Char} (negative : Bool)
    (hwhole : ∀ c ∈ whole, c.isDigit = true) (hfraction : ∀ c ∈ fraction, c.isDigit = true)
    (hne : whole ++ fraction ≠ []) :
    readDecimal negative (whole ++ pointed fraction) =
      some ⟨negative, digitsValue (whole ++ fraction), -(fraction.length : ℤ)⟩ := by
  -- No digit stands in what begins with the point.
  have hstop : (pointed fraction).takeWhile Char.isDigit = [] ∧
      (pointed fraction).dropWhile Char.isDigit = pointed fraction := by
    unfold pointed
    split <;> exact ⟨rfl, rfl⟩
  have htake : (whole ++ pointed fraction).takeWhile Char.isDigit = whole := by
    rw [List.takeWhile_append_of_pos hwhole, hstop.1, List.append_nil]
  have hdrop : (whole ++ pointed fraction).dropWhile Char.isDigit = pointed fraction := by
    rw [List.dropWhile_append_of_pos hwhole, hstop.2]
  rw [readDecimal, htake, hdrop]
  -- Without a fraction there is no point either.
  by_cases hnil : fraction = []
  · subst hnil
    rw [List.append_nil] at hne
    have hwhole' : whole.isEmpty = false := List.isEmpty_eq_false_iff.mpr hne
    simp [pointed, hwhole']
    rfl
  · -- With one, all that stands behind the point is digits.
    have hall : fraction.takeWhile Char.isDigit = fraction :=
      List.takeWhile_eq_self_iff.mpr hfraction
    have hnone : fraction.dropWhile Char.isDigit = [] := List.dropWhile_eq_nil_iff.mpr hfraction
    have hfraction' : fraction.isEmpty = false := List.isEmpty_eq_false_iff.mpr hnil
    simp only [pointed_of_ne_nil hnil, hall, hnone, hfraction', Bool.and_false,
      if_neg Bool.false_ne_true, ← zero_sub (fraction.length : ℤ)]
    rfl

/-- Digits with the point moved count units of the last place. -/
theorem readDecimal_shiftPoint (negative : Bool) (n places : ℕ) :
    readDecimal negative (Decimal.shiftPoint (digitsOf n) places) =
      some ⟨negative, n, -(places : ℤ)⟩ := by
  obtain ⟨whole, fraction, htext, hdigits, hwhole, hfraction, hlength⟩ :=
    exists_shiftPoint_eq (isDigits_digitsOf n) places
  rw [htext, readDecimal_pointed negative hwhole.2 hfraction (by simp [hwhole.1]), hdigits,
    digitsValue_zeros_append, digitsValue_digitsOf, hlength]

/-! ## §2 The text of a double -/

theorem HasValue.fixedMagnitude_eq {x : Float} {s : Sign} {q : ℚ} (h : HasValue x s q)
    (places : ℕ) : fixedMagnitude places x =
      Decimal.shiftPoint (digitsOf (nearestEven (q * 10 ^ places))) places := by
  obtain ⟨v, hv, -, -, rfl⟩ := h.ofFloat_eq
  obtain ⟨hden, hsize⟩ := v.fraction_eq
  have hscaled : ((v.fraction.1 * Nat.pow 10 places : ℕ) / v.fraction.2 : ℚ) =
      v.size * 10 ^ places := by
    rw [← hsize, Nat.cast_mul, mul_div_right_comm, Nat.pow_eq, Nat.cast_pow, Nat.cast_ofNat]
  rw [fixedMagnitude, hv]
  dsimp only
  rw [roundQuotient_toEven _ hden, hscaled]

/-- The form of the text of a finite double. -/
theorem exists_fixedMagnitude_eq {x : Float} (h : x.isFinite = true) (places : ℕ) :
    ∃ whole fraction, fixedMagnitude places x = whole ++ pointed fraction ∧
      IsDigits whole ∧ (∀ c ∈ fraction, c.isDigit = true) ∧ fraction.length = places := by
  obtain ⟨s, q, -, hx⟩ := exists_hasValue h
  obtain ⟨whole, fraction, htext, -, hform⟩ := exists_shiftPoint_eq
    (isDigits_digitsOf (nearestEven (q * 10 ^ places))) places
  exact ⟨whole, fraction, (hx.fixedMagnitude_eq places).trans htext, hform⟩

theorem fixedMagnitude_of_not_finite {x : Float} (h : x.isFinite = false) (places : ℕ) :
    fixedMagnitude places x = "NaN".toList ∨ fixedMagnitude places x = "inf".toList := by
  rw [fixedMagnitude]
  cases hv : Binary.ofFloat x with
  | nan => exact .inl rfl
  | infinite => exact .inr rfl
  | finite v => cases h.symm.trans (isFinite_of_ofFloat hv)

/-- The sign is no part of the text. -/
theorem fixedMagnitude_neg (places : ℕ) (x : Float) :
    fixedMagnitude places (-x) = fixedMagnitude places x := by
  rw [fixedMagnitude, fixedMagnitude, Binary.ofFloat_eq, Binary.ofFloat_eq, unpack_neg]
  cases x.toModel.unpack <;> rfl

theorem fixedMagnitude_abs (places : ℕ) (x : Float) :
    fixedMagnitude places x.abs = fixedMagnitude places x := by
  rcases abs_eq_or x with h | h
  · rw [h]
  · rw [h, fixedMagnitude_neg]

/-! ## §3 Rounded numbers differ in their digits -/

/-- From the size of a mantissa on, doubles are integers. -/
theorem Representable.exists_natCast {q : ℚ} (h : Representable q) (hq : 2 ^ 53 ≤ q) :
    ∃ n : ℕ, q = n := by
  obtain ⟨n, hn⟩ := h.exists_eq_mul (by positivity) hq
  have hplace : lastPlace (2 ^ 53) = 1 := by
    have hlog : Int.log 2 ((2 : ℚ) ^ (53 : ℤ)) = 53 := Int.log_zpow (by decide) 53
    rw [lastPlace, show (2 : ℚ) ^ 53 = 2 ^ (53 : ℤ) from (zpow_natCast 2 53).symm, hlog]
    rfl
  refine ⟨n * 2, ?_⟩
  rw [hn, hplace]
  push_cast
  norm_num

/-- With exact powers of ten, a double is rounded to the one nearest to a multiple of the last
place. -/
theorem exists_roundedSize_eq {x : Float} {v : Binary} {places : ℕ}
    (hv : Binary.ofFloat x = .finite v) (hplaces : places ≤ 22) :
    ∃ k : ℕ, roundedSize v places = nearestUnits places k := by
  unfold roundedSize
  split
  · exact ⟨_, rfl⟩
  have hdigits : (min maxRoundDigits places).toNat = places := by
    unfold maxRoundDigits
    omega
  -- Scaling by an exact power of ten is rounded once.
  obtain ⟨f, hf, -, -, hsize⟩ := (hasValue_tenToThe hplaces).ofFloat_eq
  rw [hdigits, scaledSize, hf]
  dsimp only
  rw [hsize]
  -- In range, the rounded size is the nearest to a count of units.
  split
  · exact ⟨_, rfl⟩
  · -- Only large doubles leave the range, and they are integers already.
    rename_i hrange
    obtain ⟨s, hs⟩ := exists_signBit v.negative
    have hx := hasValue_of_ofFloat hv hs
    -- A small double stays in range when it is scaled.
    have hlarge : 2 ^ 53 ≤ v.size := by
      by_contra hsmall
      have hproduct : v.size * 10 ^ places ≤ 2 ^ (130 : ℤ) := by
        calc v.size * 10 ^ places ≤ 2 ^ 53 * 10 ^ 22 :=
              mul_le_mul (not_le.mp hsmall).le (pow_le_pow_right₀ (by norm_num) hplaces)
                (by positivity) (by positivity)
          _ ≤ 2 ^ (130 : ℤ) := by norm_num
      refine hrange ((toNearest_mono ?_ hproduct).trans_lt ?_)
      · exact mul_nonneg (IsDouble.nonneg hx) (by positivity)
      · rw [Representable.toNearest_eq ⟨1, 130, by norm_num, by norm_num, by norm_num⟩]
        exact zpow_lt_zpow_right₀ one_lt_two (by decide)
    -- A large one is an integer, and as such a count of units.
    obtain ⟨n, hn⟩ := (IsDouble.representable hx).exists_natCast hlarge
    refine ⟨n * 10 ^ places, ?_⟩
    rw [nearestUnits, Nat.cast_mul, Nat.cast_pow, Nat.cast_ofNat,
      mul_div_cancel_right₀ _ (by positivity), ← hn, hx.toNearest_eq]

/-- Different points of a grid that is no finer than the integers have different nearest
integers. -/
theorem nearestEven_ne_of_lt {m n : ℕ} (hmn : m < n) {g : ℚ} (hg : 1 ≤ g) :
    nearestEven (m * g) ≠ nearestEven (n * g) := by
  intro heq
  have hlow := abs_le.mp (abs_nearestEven_sub_le (show 0 ≤ m * g by positivity))
  have hhigh := abs_le.mp (abs_nearestEven_sub_le (show 0 ≤ n * g by positivity))
  rw [heq] at hlow
  have hgap : (m + 1) * g ≤ n * g :=
    mul_le_mul_of_nonneg_right (by exact_mod_cast hmn) (zero_le_one.trans hg)
  -- The points are one apart at most, so the grid is that of the integers.
  obtain rfl : g = 1 := by linarith
  rw [mul_one, mul_one, nearestEven_natCast, nearestEven_natCast] at heq
  exact hmn.ne heq

theorem lastPlace_two_pow (l : ℤ) (h : -1074 ≤ l) : lastPlace (2 ^ (52 + l)) = l := by
  have hlog : Int.log 2 ((2 : ℚ) ^ (52 + l)) = 52 + l := Int.log_zpow (by decide) _
  rw [lastPlace, hlog]
  omega

/-- A power of two whose grid is no finer than the last place is a multiple of the last place. -/
theorem exists_two_pow_mul_ten_pow {places : ℕ} (hplaces : places ≤ 22) {l : ℤ}
    (h : 1 ≤ (2 : ℚ) ^ l * 10 ^ places) : ∃ c : ℕ, (2 : ℚ) ^ (52 + l) * 10 ^ places = c := by
  -- With a lower exponent the grid would be finer than a unit: five to the number of places does
  -- not make up for it.
  have hexponent : -(52 + places : ℤ) ≤ l := by
    by_contra hsmall
    have hfive : (5 : ℚ) ^ places < 2 ^ 53 :=
      (pow_le_pow_right₀ (by norm_num) hplaces).trans_lt (by norm_num)
    have hlt : (2 : ℚ) ^ l * 10 ^ places < 1 := by
      calc (2 : ℚ) ^ l * 10 ^ places ≤ 2 ^ (-(53 : ℤ) - places) * 10 ^ places :=
            mul_le_mul_of_nonneg_right (zpow_le_zpow_right₀ one_le_two (by omega)) (by positivity)
        _ = 5 ^ places / 2 ^ 53 := by
          rw [zpow_sub₀ two_ne_zero, zpow_neg, zpow_natCast, show (10 : ℚ) = 2 * 5 by norm_num,
            mul_pow]
          field_simp
        _ < 1 := (div_lt_one (by positivity)).mpr hfive
    exact absurd h (not_le.mpr hlt)
  -- Ten is twice five, and the twos make up for the negative exponent.
  obtain ⟨n, hn⟩ := Int.eq_ofNat_of_zero_le (show 0 ≤ 52 + l + places by omega)
  refine ⟨2 ^ n * 5 ^ places, ?_⟩
  rw [show 52 + l = n - places by omega, zpow_sub₀ two_ne_zero, zpow_natCast, zpow_natCast,
    show (10 : ℚ) = 2 * 5 by norm_num, mul_pow]
  push_cast
  field_simp

section Digits

variable {places k₁ k₂ : ℕ}

/-- The units of the place that are printed of that double. -/
def printedUnits (places k : ℕ) : ℕ := nearestEven (nearestUnits places k * 10 ^ places)

theorem nearestUnits_mono (h : k₁ ≤ k₂) : nearestUnits places k₁ ≤ nearestUnits places k₂ :=
  toNearest_mono (by positivity)
    (div_le_div_of_nonneg_right (Nat.cast_le.mpr h) (by positivity))

/-- On a binary grid that is no finer than the decimal one, doubles differ in their digits. -/
theorem printedUnits_ne_of_grid {l : ℤ} (hl : 1 ≤ (2 : ℚ) ^ l * 10 ^ places) {n₁ n₂ : ℕ}
    (h₁ : nearestUnits places k₁ = n₁ * 2 ^ l) (h₂ : nearestUnits places k₂ = n₂ * 2 ^ l)
    (hlt : nearestUnits places k₁ < nearestUnits places k₂) :
    printedUnits places k₁ ≠ printedUnits places k₂ := by
  have hn : n₁ < n₂ := by
    rw [h₁, h₂] at hlt
    exact_mod_cast lt_of_mul_lt_mul_right hlt (two_zpow_pos l).le
  rw [printedUnits, printedUnits, h₁, h₂, mul_assoc, mul_assoc]
  exact nearestEven_ne_of_lt hn hl

/-- Where the digits are not those of the multiple, the binary grid is no finer than the decimal
one. -/
theorem one_le_grid {k : ℕ} (h : printedUnits places k ≠ k) :
    1 ≤ (2 : ℚ) ^ lastPlace (k / 10 ^ places) * 10 ^ places := by
  have hpos : (0 : ℚ) < 10 ^ places := by positivity
  have herror := abs_toNearest_sub_le (show (0 : ℚ) ≤ k / 10 ^ places by positivity)
  -- The printed units differ from the count by one at least.
  have hdigits : (1 : ℚ) ≤ |(printedUnits places k : ℚ) - k| := by
    have hint : (1 : ℤ) ≤ |(printedUnits places k : ℤ) - k| := Int.one_le_abs (by omega)
    exact_mod_cast hint
  -- Half of that is from rounding to units, so the rest is from rounding to a double.
  have hround := abs_nearestEven_sub_le
    (show 0 ≤ nearestUnits places k * 10 ^ places from mul_nonneg (toNearest_nonneg _) hpos.le)
  have hscaled : |nearestUnits places k * 10 ^ places - k| ≤
      2 ^ lastPlace (k / 10 ^ places) / 2 * 10 ^ places := by
    have hsub : nearestUnits places k * 10 ^ places - k =
        (nearestUnits places k - k / 10 ^ places) * 10 ^ places := by
      rw [sub_mul, div_mul_cancel₀ _ hpos.ne']
    rw [hsub, abs_mul, abs_of_pos hpos]
    exact mul_le_mul_of_nonneg_right herror hpos.le
  -- The two errors together are at least one.
  have htriangle := abs_sub_le (printedUnits places k : ℚ) (nearestUnits places k * 10 ^ places) k
  change |(printedUnits places k : ℚ) - _| ≤ _ at hround
  linarith

theorem representable_two_pow_add {q : ℚ} {l : ℤ} (hl : lastPlace q = l) :
    Representable (2 ^ (52 + l)) := by
  refine ⟨2 ^ 52, l, by norm_num, hl ▸ le_max_right _ _, ?_⟩
  rw [zpow_add₀ two_ne_zero]
  norm_num

/-- A double on such a grid is at least the power of two from which the grid is its own. -/
theorem two_pow_le_nearestUnits (hplaces : places ≤ 22) {k : ℕ} (hk : 0 < k) {l : ℤ}
    (hl : lastPlace (k / 10 ^ places) = l) (hgrid : 1 ≤ (2 : ℚ) ^ l * 10 ^ places) :
    2 ^ (52 + l) ≤ nearestUnits places k := by
  -- A lower exponent would make the grid finer than a unit.
  have hexponent : -88 ≤ l := by
    by_contra hsmall
    have hlt : (2 : ℚ) ^ l * 10 ^ places < 1 := by
      calc (2 : ℚ) ^ l * 10 ^ places ≤ 2 ^ (-89 : ℤ) * 10 ^ 22 :=
            mul_le_mul (zpow_le_zpow_right₀ one_le_two (by omega))
              (pow_le_pow_right₀ (by norm_num) hplaces) (by positivity) (by positivity)
        _ < 1 := by norm_num
    exact absurd hgrid (not_le.mpr hlt)
  -- So the exponent is that of the magnitude itself.
  have hlog : Int.log 2 (k / 10 ^ places : ℚ) = 52 + l := by
    unfold lastPlace at hl
    omega
  have hpos : (0 : ℚ) < k / 10 ^ places := div_pos (Nat.cast_pos.mpr hk) (by positivity)
  rw [← (representable_two_pow_add hl).toNearest_eq, ← hlog]
  exact toNearest_mono (two_zpow_pos _).le (Int.zpow_log_le_self (by decide) hpos)

/-- If the smaller double has the digits of its multiple, and the larger one has them too, these are
not the digits of the larger one's multiple. So the binary grid of the larger double is no finer
than the decimal one, and the smaller double lies on it. -/
private theorem printedUnits_ne_of_eq (hplaces : places ≤ 22) (hk : k₁ < k₂)
    (hlt : nearestUnits places k₁ < nearestUnits places k₂) (hfirst : printedUnits places k₁ = k₁) :
    printedUnits places k₁ ≠ printedUnits places k₂ := by
  intro h
  -- If both are printed the same, the second has lost its own units.
  have hsecond : printedUnits places k₂ = k₁ := h.symm.trans hfirst
  have hgrid := one_le_grid (show printedUnits places k₂ ≠ k₂ from hsecond ▸ hk.ne)
  obtain ⟨l, hl⟩ : ∃ l, lastPlace (k₂ / 10 ^ places) = l := ⟨_, rfl⟩
  rw [hl] at hgrid
  -- Then its grid is coarser than a unit, and it lies above a power of two on that grid.
  have hpower := two_pow_le_nearestUnits hplaces (Nat.zero_lt_of_lt hk) hl hgrid
  -- The first lies above that power too, as it is printed as it is.
  have hbelow : 2 ^ (52 + l) ≤ nearestUnits places k₁ := by
    obtain ⟨c, hc⟩ := exists_two_pow_mul_ten_pow hplaces hgrid
    have hcount : c ≤ k₁ := by
      calc c = nearestEven c := (nearestEven_natCast c).symm
        _ ≤ printedUnits places k₂ :=
          nearestEven_mono (hc ▸ mul_le_mul_of_nonneg_right hpower (by positivity))
        _ = k₁ := hsecond
    rw [← (representable_two_pow_add hl).toNearest_eq]
    refine toNearest_mono (two_zpow_pos _).le ?_
    rw [le_div_iff₀ (by positivity), hc]
    exact_mod_cast hcount
  -- So both are on one grid that is coarser than a unit, and they differ on it.
  obtain ⟨n₁, hn₁⟩ := (representable_toNearest _).exists_eq_mul (two_zpow_pos _) hbelow
  rw [lastPlace_two_pow l (hl ▸ le_max_right _ _)] at hn₁
  have hn₂ : nearestUnits places k₂ = nearestEven (k₂ / 10 ^ places / 2 ^ l) * 2 ^ l := by
    rw [nearestUnits, toNearest, hl]
  exact printedUnits_ne_of_grid hgrid hn₁ hn₂ hlt h

/-- If the smaller double does not have the digits of its multiple, its binary grid is no finer than
the decimal one, and the larger double lies on it. -/
private theorem printedUnits_ne_of_ne (hlt : nearestUnits places k₁ < nearestUnits places k₂)
    (hfirst : printedUnits places k₁ ≠ k₁) : printedUnits places k₁ ≠ printedUnits places k₂ := by
  -- The first is not zero, since zero is printed as it is.
  have hpos : (0 : ℚ) < k₁ / 10 ^ places := by
    refine div_pos (Nat.cast_pos.mpr (Nat.pos_of_ne_zero ?_)) (by positivity)
    rintro rfl
    refine hfirst ?_
    rw [printedUnits, nearestUnits, Nat.cast_zero, zero_div, toNearest_zero, zero_mul,
      ← Nat.cast_zero, nearestEven_natCast]
  -- The second is above the magnitude of the first, otherwise they would be rounded in order.
  have habove : k₁ / 10 ^ places ≤ nearestUnits places k₂ := by
    by_contra hsmall
    have hmono := toNearest_mono (toNearest_nonneg _) (not_le.mp hsmall).le
    rw [(representable_toNearest _).toNearest_eq] at hmono
    exact absurd hmono (not_le.mpr hlt)
  -- So it is a point of the grid of the first.
  obtain ⟨n₂, hn₂⟩ := (representable_toNearest _).exists_eq_mul hpos habove
  exact printedUnits_ne_of_grid (one_le_grid hfirst) rfl hn₂ hlt

/-- Doubles nearest to multiples of a decimal place are the same if they have the same digits. -/
theorem nearestUnits_eq_of_printedUnits_eq (hplaces : places ≤ 22)
    (h : printedUnits places k₁ = printedUnits places k₂) :
    nearestUnits places k₁ = nearestUnits places k₂ := by
  wlog hlt : nearestUnits places k₁ < nearestUnits places k₂ generalizing k₁ k₂
  · rcases (not_lt.mp hlt).lt_or_eq with hgt | heq
    · exact (this h.symm hgt).symm
    · exact heq.symm
  have hk : k₁ < k₂ := by
    by_contra hle
    exact absurd (nearestUnits_mono (not_lt.mp hle)) (not_le.mpr hlt)
  by_cases hfirst : printedUnits places k₁ = k₁
  · exact absurd h (printedUnits_ne_of_eq hplaces hk hlt hfirst)
  · exact absurd h (printedUnits_ne_of_ne hlt hfirst)

end Digits

/-- A number that was rounded to few places is known from its sign and its text. -/
theorem roundHalfUp_eq_of_fixedMagnitude_eq {x y : Float} {s : Sign} {p q : ℚ}
    (hx : HasValue x s p) (hy : HasValue y s q) {places : ℕ} (hplaces : places ≤ 22)
    (h : fixedMagnitude places (roundHalfUp x places) =
      fixedMagnitude places (roundHalfUp y places)) :
    roundHalfUp x places = roundHalfUp y places := by
  -- Both have a rounded size that is nearest to a count of units.
  obtain ⟨v, hv, hvs, -⟩ := hx.ofFloat_eq
  obtain ⟨w, hw, hws, -⟩ := hy.ofFloat_eq
  obtain ⟨k₁, hk₁⟩ := exists_roundedSize_eq hv hplaces
  obtain ⟨k₂, hk₂⟩ := exists_roundedSize_eq hw hplaces
  have hfirst := hk₁ ▸ hasValue_roundHalfUp hv hvs places
  have hsecond := hk₂ ▸ hasValue_roundHalfUp hw hws places
  rw [hfirst.fixedMagnitude_eq, hsecond.fixedMagnitude_eq] at h
  -- What is printed says which units they are, and the units say which double.
  have hread := congrArg (readDecimal false) h
  rw [readDecimal_shiftPoint, readDecimal_shiftPoint] at hread
  have hunits : printedUnits places k₁ = printedUnits places k₂ :=
    (Decimal.mk.inj (Option.some.inj hread)).2.1
  exact (nearestUnits_eq_of_printedUnits_eq hplaces hunits ▸ hfirst).eq hsecond

end BandedReport
