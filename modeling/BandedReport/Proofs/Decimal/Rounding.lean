import BandedReport.Proofs.Decimal.Finite

/-!
# What rounding to a number of places gives

A finite double rounded to a number of places is a finite double of the same sign, whose magnitude
depends on the magnitude alone. Numbers that fit a fixed-size decimal are rounded on their decimal
text, to the double nearest to so many units of the last place. All others are scaled by a power of
ten, rounded to an integer and scaled back.

* `HasValue.roundHalfAway` and `hasValue_roundByScaling` are the two steps of the second way;
* `roundedSize` is the magnitude of what is rounded, and `hasValue_roundHalfUp` says so;
* `roundHalfUp_neg`: rounding goes the same way on both sides of zero.
-/

namespace BandedReport

open Float.Model (UnpackedFloat)
open Float.Model.UnpackedFloat (Sign)

/-! ## §1 The nearest integer -/

theorem Sign.mul_positive (s : Sign) : s * .positive = s := by
  cases s <;> rfl

theorem Sign.div_positive (s : Sign) : s / .positive = s := by
  cases s <;> rfl

theorem HasValue.withSign {x : Float} {q : ℚ} (h : HasValue x .positive q) {s : Sign}
    {negative : Bool} (hs : negative = signBit s) :
    HasValue (Binary.withSign negative x) s q := by
  subst hs
  cases s with
  | positive => exact h
  | negative => exact h.neg

/-- Halves go away from zero, so the sign has no part in rounding to an integer. -/
theorem HasValue.roundHalfAway {x : Float} {s : Sign} {q : ℚ} (h : HasValue x s q) :
    HasValue (BandedReport.roundHalfAway x) s ⌊q + 1 / 2⌋₊ := by
  obtain ⟨v, hv, hs, hmantissa, rfl⟩ := h.ofFloat_eq
  obtain ⟨hden, hsize⟩ := v.fraction_eq
  rw [roundHalfAway_finite hv]
  by_cases hintegral : v.isIntegral = true
  · rw [if_pos hintegral]
    -- An integer is rounded to itself.
    have hmod : v.fraction.1 % v.fraction.2 = 0 := by simpa [Binary.isIntegral] using hintegral
    have hwhole : v.size = (v.fraction.1 / v.fraction.2 : ℕ) := by
      rw [← hsize, Nat.cast_div (Nat.dvd_of_mod_eq_zero hmod) (Nat.cast_ne_zero.mpr hden.ne')]
    rwa [hwhole, floor_natCast_add_half, ← hwhole]
  · rw [if_neg hintegral, ← floor_div_add_half _ hden, hsize]
    -- What is not integral has binary places, and so its integer part is short.
    have hexponent : v.exponent < 0 := by
      by_contra hlarge
      refine hintegral ?_
      simp [Binary.isIntegral, Binary.fraction, if_pos (not_lt.mp hlarge), Nat.mod_one]
    have hplace : (2 : ℚ) ^ v.exponent ≤ 1 / 2 := by
      calc (2 : ℚ) ^ v.exponent ≤ 2 ^ (-1 : ℤ) := zpow_le_zpow_right₀ one_le_two (by omega)
        _ = 1 / 2 := by norm_num
    have hsmall : v.size ≤ 2 ^ 53 * (1 / 2) :=
      mul_le_mul (by exact_mod_cast hmantissa.le) hplace (two_zpow_pos _).le (by norm_num)
    have hfloor : ⌊v.size + 1 / 2⌋₊ ≤ 2 ^ 53 := Nat.floor_le_of_le (by push_cast; linarith)
    exact (hasValue_ofNat hfloor).withSign hs

/-! ## §2 Powers of ten -/

/-- What numbers are scaled by: a double of at least one, unless it left the range. -/
def IsFactor (x : Float) : Prop := x.isFinite = true → ∃ f, 1 ≤ f ∧ HasValue x .positive f

/-- What is multiplied with a double that is not finite is not finite. -/
theorem isFinite_of_isFinite_mul {x y : Float} (h : (x * y).isFinite = true) :
    x.isFinite = true ∧ y.isFinite = true := by
  have hproduct : (Float.Model.pack
      (x.toModel.unpack.mul .binary64 y.toModel.unpack)).unpack.isFinite = true := h
  show x.toModel.unpack.isFinite = true ∧ y.toModel.unpack.isFinite = true
  generalize x.toModel.unpack = u at *
  generalize y.toModel.unpack = v at *
  have hnan : (Float.Model.pack .notANumber).unpack.isFinite = false := by decide +kernel
  have hinfinite (s : Sign) : (Float.Model.pack (.infinity s)).unpack.isFinite = false := by
    cases s <;> decide +kernel
  -- A product with a factor that is not finite is infinite or missing before it is packed.
  cases u <;> cases v <;>
    simp_all [UnpackedFloat.mul, UnpackedFloat.isFinite]

theorem IsFactor.mul {x y : Float} (hx : IsFactor x) (hy : IsFactor y) : IsFactor (x * y) := by
  intro hfinite
  obtain ⟨hxfinite, hyfinite⟩ := isFinite_of_isFinite_mul hfinite
  obtain ⟨p, hp, hxvalue⟩ := hx hxfinite
  obtain ⟨q, hq, hyvalue⟩ := hy hyfinite
  refine ⟨toNearest (p * q), ?_, (hxvalue.mul hyvalue).hasValue_of_isFinite hfinite⟩
  have hone : toNearest (1 : ℕ) = 1 :=
    (representable_natCast (by decide)).toNearest_eq.trans Nat.cast_one
  rw [← hone]
  refine toNearest_mono (by norm_num) ?_
  rw [Nat.cast_one]
  nlinarith

theorem isFactor_go {base acc : Float} (hbase : IsFactor base) (hacc : IsFactor acc) (k : ℕ) :
    IsFactor (tenToThe.go base k acc) := by
  -- The induction is on the exponent, which is halved; base and product change with it.
  induction k using Nat.strong_induction_on generalizing base acc with
  | _ k ih =>
    have hnext : IsFactor (if k % 2 == 1 then acc * base else acc) := by
      split
      · exact hacc.mul hbase
      · exact hacc
    rw [tenToThe.go]
    split
    · exact hnext
    · exact ih (k / 2) (by omega) (hbase.mul hbase) hnext

theorem representable_ten_pow {k : ℕ} (hk : k ≤ 22) : Representable (10 ^ k) := by
  refine ⟨5 ^ k, k, ?_, by omega, ?_⟩
  · exact (Nat.pow_le_pow_right (by decide) hk).trans_lt (by norm_num)
  · rw [zpow_natCast, Nat.cast_pow, ← mul_pow]
    norm_num

/-- Products of short powers of ten are exact. -/
theorem HasValue.mul_ten_pow {x y : Float} {j k : ℕ} (hx : HasValue x .positive (10 ^ j))
    (hy : HasValue y .positive (10 ^ k)) (h : j + k ≤ 22) :
    HasValue (x * y) .positive (10 ^ (j + k)) := by
  have hproduct := hx.mul hy
  rw [← pow_add] at hproduct
  refine hproduct.hasValue_of_representable (representable_ten_pow h) ?_
  calc (10 : ℚ) ^ (j + k) ≤ 10 ^ 22 := pow_le_pow_right₀ (by norm_num) h
    _ < 2 ^ (80 : ℤ) := by norm_num
    _ ≤ doubleRange := zpow_le_zpow_right₀ one_le_two (by decide)

theorem hasValue_go {base acc : Float} {i j : ℕ} (hbase : HasValue base .positive (10 ^ i))
    (hacc : HasValue acc .positive (10 ^ j)) (k : ℕ) (h : j + i * k ≤ 22) :
    HasValue (tenToThe.go base k acc) .positive (10 ^ (j + i * k)) := by
  -- The product of the accumulator and the power of the base still to come stays the same.
  induction k using Nat.strong_induction_on generalizing base acc i j with
  | _ k ih =>
    -- Half of the exponent goes to the squared base, and the rest to the accumulator.
    have hk : i * k = i * (k % 2) + (i + i) * (k / 2) := by
      rw [← two_mul, mul_comm 2, mul_assoc, ← mul_add, Nat.mod_add_div]
    have hnext : HasValue (if k % 2 == 1 then acc * base else acc) .positive
        (10 ^ (j + i * (k % 2))) := by
      rcases Nat.mod_two_eq_zero_or_one k with hmod | hmod
      · rw [hmod, if_neg (by decide), mul_zero, add_zero]
        exact hacc
      · rw [hmod] at hk ⊢
        rw [if_pos (by decide), mul_one]
        exact hacc.mul_ten_pow hbase (by omega)
    rw [tenToThe.go]
    split
    · -- Nothing is left, and the accumulator has the whole power.
      rename_i hlast
      rwa [hk, hlast, mul_zero, add_zero]
    · rename_i hmore
      have hi : i + i ≤ (i + i) * (k / 2) := Nat.le_mul_of_pos_right _ (Nat.pos_of_ne_zero hmore)
      have hrest := ih (k / 2) (by omega) (hbase.mul_ten_pow hbase (by omega)) hnext (by omega)
      rwa [add_assoc, ← hk] at hrest

theorem hasValue_one : HasValue 1.0 .positive 1 := hasValue_powerOfTen 0

theorem hasValue_ten : HasValue 10.0 .positive 10 := hasValue_powerOfTen 1

theorem isFactor_tenToThe (k : ℕ) : IsFactor (tenToThe k) :=
  isFactor_go (fun _ => ⟨10, by norm_num, hasValue_ten⟩) (fun _ => ⟨1, le_refl 1, hasValue_one⟩) k

/-- The first powers of ten are exact. -/
theorem hasValue_tenToThe {k : ℕ} (hk : k ≤ 22) : HasValue (tenToThe k) .positive (10 ^ k) := by
  have hbase : HasValue 10.0 .positive (10 ^ 1) := (pow_one (10 : ℚ)).symm ▸ hasValue_ten
  have hacc : HasValue 1.0 .positive (10 ^ 0) := (pow_zero (10 : ℚ)).symm ▸ hasValue_one
  have hpower := hasValue_go hbase hacc k (by omega)
  rwa [one_mul, zero_add] at hpower

/-! ## §3 Rounding by scaling -/

/-- The magnitude that is rounded by scaling with a factor; it is kept where the product leaves the
range of doubles. -/
def scaledSize (factor : Float) (q : ℚ) : ℚ :=
  match Binary.ofFloat factor with
  | .finite f =>
    if toNearest (q * f.size) < doubleRange then
      toNearest (⌊toNearest (q * f.size) + 1 / 2⌋₊ / f.size)
    else q
  | _ => q

theorem HasValue.toNearest_div_lt {x : Float} {s : Sign} {q f : ℚ} (h : HasValue x s q)
    (hf : 1 ≤ f) : toNearest (q / f) < doubleRange := by
  have hq : 0 ≤ q := IsDouble.nonneg h
  calc toNearest (q / f) ≤ toNearest q :=
        toNearest_mono (div_nonneg hq (zero_le_one.trans hf)) (div_le_self hq hf)
    _ = q := h.toNearest_eq
    _ < doubleRange := h.lt_doubleRange

theorem hasValue_roundByScaling {x : Float} {s : Sign} {q : ℚ} (h : HasValue x s q) (n : ℕ) :
    HasValue (roundByScaling x n) s (scaledSize (tenToThe n) q) := by
  have hfactor := isFactor_tenToThe n
  -- The count of places is not negative, so the number is multiplied first.
  have hround : roundByScaling x n = if (x * tenToThe n).isFinite then
      roundHalfAway (x * tenToThe n) / tenToThe n else x := by
    rw [roundByScaling, if_neg (by omega)]
    rfl
  rw [hround, scaledSize]
  generalize tenToThe n = factor at *
  cases hf : Binary.ofFloat factor with
  | nan | infinite =>
    -- A factor outside the range takes the product there.
    have hinfinite : (x * factor).isFinite = false := by
      refine eq_false_of_ne_true fun hfinite => ?_
      obtain ⟨t, p, -, hvalue⟩ := exists_hasValue (isFinite_of_isFinite_mul hfinite).2
      obtain ⟨v, hv, -⟩ := hvalue.ofFloat_eq
      cases hf.symm.trans hv
    rwa [hinfinite, if_neg Bool.false_ne_true]
  | finite w =>
    have hfinite : factor.isFinite = true := isFinite_of_ofFloat hf
    obtain ⟨f, hone, hvalue⟩ := hfactor hfinite
    obtain ⟨w', hw, -, -, rfl⟩ := hvalue.ofFloat_eq
    obtain rfl : w' = w := FloatValue.finite.inj (hw.symm.trans hf)
    have hproduct := h.mul hvalue
    rw [Sign.mul_positive] at hproduct
    dsimp only
    by_cases hrange : toNearest (q * w'.size) < doubleRange
    · -- The factor is at least one, so scaling back does not leave the range.
      have hscaled := hproduct.hasValue hrange
      have hwhole := hscaled.roundHalfAway
      have hquotient := hwhole.div hvalue (by positivity)
      rw [Sign.div_positive] at hquotient
      rw [if_pos hrange, if_pos hscaled.isFinite]
      exact hquotient.hasValue (hwhole.toNearest_div_lt hone)
    · -- Out of the range, the number is left as it is.
      rwa [if_neg hrange, if_neg (hproduct.isFinite_iff.not.mpr hrange)]

/-! ## §4 Rounding on the decimal text -/

/-- The double nearest to so many units of a decimal place. -/
def nearestUnits (places k : ℕ) : ℚ := toNearest (k / 10 ^ places)

namespace Decimal

/-- The units of a decimal place nearest to a decimal, a half going up. -/
def units (d : Decimal) (places : ℕ) : ℕ := ⌊d.size * 10 ^ places + 1 / 2⌋₊

theorem le_exponent_roundTo (places : ℕ) (d : Decimal) : -places ≤ (d.roundTo places).exponent := by
  rw [roundTo]
  split
  · rename_i h
    rw [Decimal.places] at h
    omega
  · exact le_refl _

/-- A rounded decimal counts units of its last place. -/
theorem size_roundTo (places : ℕ) (d : Decimal) :
    (d.roundTo places).size = d.units places / 10 ^ places := by
  have hexponent := le_exponent_roundTo places d
  obtain ⟨n, hn⟩ := Int.eq_ofNat_of_zero_le (show 0 ≤ (d.roundTo places).exponent + places by omega)
  rw [units, eq_div_iff (by positivity), size_mul_pow, ← coefficient_roundTo, hn,
    Int.toNat_natCast, zpow_natCast]
  push_cast
  rfl

theorem negative_roundTo (places : ℕ) (d : Decimal) :
    (d.roundTo places).negative = d.negative := by
  rw [roundTo]
  split <;> rfl

/-- The shortest decimal of a double, with the places of a fixed-size decimal. -/
def ofBinary (v : Binary) : Decimal := (v.shortest .up).roundTo maxPlaces

/-- Does the decimal fit ninety-six bits? -/
def Fits (d : Decimal) : Prop := d.coefficient * Nat.pow 10 d.exponent.toNat < capacity

instance (d : Decimal) : Decidable d.Fits := inferInstanceAs (Decidable (_ < _))

theorem ofFloat?_eq {x : Float} {v : Binary} (hv : Binary.ofFloat x = .finite v) :
    ofFloat? x = if (ofBinary v).Fits then some (ofBinary v) else none := by
  rw [ofFloat?, hv]
  rfl

theorem Fits.size_lt {d : Decimal} (h : d.Fits) : d.size < 2 ^ 96 := by
  have hpower : (10 : ℚ) ^ d.exponent ≤ 10 ^ d.exponent.toNat := by
    rw [← zpow_natCast]
    exact zpow_le_zpow_right₀ (by norm_num) (by omega)
  calc d.size ≤ d.coefficient * 10 ^ d.exponent.toNat :=
        mul_le_mul_of_nonneg_left hpower (Nat.cast_nonneg _)
    _ < 2 ^ 96 := by exact_mod_cast h

/-- A fixed-size decimal is rounded to the double nearest to a multiple of its last place. -/
theorem hasValue_toFloat_roundTo {d : Decimal} {s : Sign} (h : d.Fits)
    (hs : d.negative = signBit s) (places : ℕ) :
    HasValue (d.roundTo places).toFloat s (nearestUnits places (d.units places)) := by
  have hnearest := isNearest_toFloat ((negative_roundTo places d).trans hs)
  rw [size_roundTo] at hnearest
  refine hnearest.hasValue ?_
  -- Rounding adds half a place at most, for which one more bit is room enough.
  have hsize : (d.units places / 10 ^ places : ℚ) ≤ (2 ^ 97 : ℕ) := by
    have hnonneg : 0 ≤ d.size * 10 ^ places + 1 / 2 := by
      have hsize : 0 ≤ d.size := mul_nonneg (Nat.cast_nonneg _) (zpow_nonneg (by norm_num) _)
      positivity
    have hpower : (1 : ℚ) ≤ 10 ^ places := one_le_pow₀ (by norm_num)
    rw [div_le_iff₀ (by positivity)]
    refine (Nat.floor_le hnonneg).trans ?_
    have hlt := h.size_lt
    push_cast
    nlinarith
  calc toNearest _ ≤ toNearest (2 ^ 97 : ℕ) := toNearest_mono (by positivity) hsize
    _ = (2 ^ 97 : ℕ) := Representable.toNearest_eq ⟨1, 97, by norm_num, by norm_num, by norm_num⟩
    _ < doubleRange := by
      rw [Nat.cast_pow, Nat.cast_ofNat, ← zpow_natCast]
      exact zpow_lt_zpow_right₀ one_lt_two (by decide)

end Decimal

/-- The magnitude of a double rounded to a number of places. -/
def roundedSize (v : Binary) (places : ℕ) : ℚ :=
  if places ≤ Decimal.maxPlaces ∧ (Decimal.ofBinary v).Fits then
    nearestUnits places ((Decimal.ofBinary v).units places)
  else scaledSize (tenToThe (min maxRoundDigits places).toNat) v.size

theorem hasValue_roundHalfUp {x : Float} {v : Binary} {s : Sign}
    (hv : Binary.ofFloat x = .finite v) (hs : v.negative = signBit s) (places : ℕ) :
    HasValue (roundHalfUp x places) s (roundedSize v places) := by
  have hx := hasValue_of_ofFloat hv hs
  -- Only counts of places beyond those of a fixed-size decimal are clamped.
  obtain ⟨n, hn⟩ : ∃ n : ℕ, max (-maxRoundDigits) (min maxRoundDigits places) = n ∧
      (min maxRoundDigits places).toNat = n ∧ (n ≤ Decimal.maxPlaces ↔ places ≤ Decimal.maxPlaces) ∧
      (n ≤ Decimal.maxPlaces → n = places) := by
    unfold maxRoundDigits Decimal.maxPlaces
    exact ⟨(min 308 (places : ℤ)).toNat, by omega, rfl, by omega, by omega⟩
  obtain ⟨hclamp, hdigits, hle, heq⟩ := hn
  rw [roundHalfUp, hx.isFinite, Bool.not_true, if_neg Bool.false_ne_true, hclamp, roundedSize,
    hdigits]
  dsimp only
  -- Decimals with room for the places are rounded as decimals, and all others by scaling.
  by_cases hplaces : places ≤ Decimal.maxPlaces
  · obtain rfl := heq (hle.mpr hplaces)
    rw [if_pos (by simpa using hplaces), Decimal.ofFloat?_eq hv]
    by_cases hfits : (Decimal.ofBinary v).Fits
    · rw [if_pos hfits, if_pos ⟨hplaces, hfits⟩]
      refine Decimal.hasValue_toFloat_roundTo hfits ?_ n
      rw [Decimal.ofBinary, Decimal.negative_roundTo, Binary.shortest_negative, hs]
    · rw [if_neg hfits, if_neg fun h => hfits h.2]
      exact hasValue_roundByScaling hx n
  · rw [if_neg (by simpa [hle] using hplaces), if_neg fun h => hplaces h.1]
    exact hasValue_roundByScaling hx n

/-! ## §5 Both sides of zero -/

theorem float_zero_eq : (0 : Float) = 0.0 := by
  have hzero : HasValue 0 .positive (0 : ℕ) := hasValue_ofNat (Nat.zero_le (2 ^ 53))
  rw [Nat.cast_zero] at hzero
  exact hzero.eq hasValue_zero

theorem HasValue.lt_zero_iff {x : Float} {s : Sign} {q : ℚ} (h : HasValue x s q) :
    x < 0 ↔ s = .negative ∧ q ≠ 0 := by
  rw [float_zero_eq, BandedReport.lt_zero_iff]
  rw [HasValue] at h
  generalize x.toModel.unpack = u at h
  cases h with
  | zero => simp
  | finite hpos => simp [hpos, hpos.ne', (two_zpow_pos _).ne']

theorem abs_eq_or (x : Float) : x.abs = x ∨ x.abs = -x := by
  have hunpack : x.toModel.unpack.abs = x.toModel.unpack ∨
      x.toModel.unpack.abs = x.toModel.unpack.neg := by
    cases x.toModel.unpack with
    | notANumber => exact .inl rfl
    | zero s | infinity s | finite s =>
      cases s with
      | positive => exact .inl rfl
      | negative => exact .inr rfl
  refine hunpack.imp (fun h => ?_) (fun h => ?_) <;> apply float_eq_of_unpack
  · rw [unpack_abs, h]
  · rw [unpack_abs, unpack_neg, h]

theorem exists_signBit (negative : Bool) : ∃ s, negative = signBit s := by
  cases negative with
  | false => exact ⟨.positive, rfl⟩
  | true => exact ⟨.negative, rfl⟩

theorem signBit_neg (s : Sign) : signBit (-s) = !signBit s := by
  cases s <;> rfl

theorem Binary.ofFloat_neg {x : Float} {v : Binary} (h : Binary.ofFloat x = .finite v) :
    Binary.ofFloat (-x) = .finite { v with negative := !v.negative } := by
  rw [Binary.ofFloat_eq] at h ⊢
  rw [unpack_neg]
  cases hx : x.toModel.unpack with
  | notANumber | infinity =>
    rw [hx] at h
    cases h
  | zero s | finite s =>
    rw [hx] at h
    cases h
    cases s <;> rfl

theorem Decimal.roundTo_withSign (places : ℕ) (d : Decimal) (negative : Bool) :
    ({ d with negative } : Decimal).roundTo places = { d.roundTo places with negative } := by
  have hplaces : ({ d with negative } : Decimal).places = d.places := rfl
  rw [roundTo, roundTo, hplaces]
  split <;> rfl

theorem roundedSize_withSign (v : Binary) (negative : Bool) (places : ℕ) :
    roundedSize { v with negative } places = roundedSize v places := by
  have hdecimal : Decimal.ofBinary { v with negative } =
      { Decimal.ofBinary v with negative } := by
    rw [Decimal.ofBinary, Binary.shortest_withSign, Decimal.roundTo_withSign]
    rfl
  rw [roundedSize, hdecimal]
  rfl

theorem roundHalfUp_of_not_finite {x : Float} (h : x.isFinite = false) (digits : Int) :
    roundHalfUp x digits = x := by
  rw [roundHalfUp, h]
  rfl

/-- Rounding goes the same way on both sides of zero. -/
theorem roundHalfUp_neg (x : Float) (places : ℕ) :
    roundHalfUp (-x) places = -roundHalfUp x places := by
  cases hfinite : x.isFinite with
  | false =>
    rw [roundHalfUp_of_not_finite hfinite, roundHalfUp_of_not_finite (isFinite_neg x ▸ hfinite)]
  | true =>
    obtain ⟨s, q, -, hx⟩ := exists_hasValue hfinite
    obtain ⟨v, hv, hs, -⟩ := hx.ofFloat_eq
    have hneg := hasValue_roundHalfUp (s := -s) (Binary.ofFloat_neg hv)
      (by rw [hs, signBit_neg]) places
    rw [roundedSize_withSign] at hneg
    exact hneg.eq (hasValue_roundHalfUp hv hs places).neg

theorem isFinite_roundHalfUp {x : Float} (h : x.isFinite = true) (places : ℕ) :
    (roundHalfUp x places).isFinite = true := by
  obtain ⟨s, q, -, hx⟩ := exists_hasValue h
  obtain ⟨v, hv, hs, -⟩ := hx.ofFloat_eq
  exact (hasValue_roundHalfUp hv hs places).isFinite

/-- What is rounded of a magnitude is not below zero. -/
theorem not_roundHalfUp_abs_lt_zero (x : Float) (places : ℕ) :
    ¬ roundHalfUp x.abs places < 0 := by
  cases hfinite : x.isFinite with
  | false =>
    have habs : x.abs.isFinite = false := isFinite_abs x ▸ hfinite
    rw [roundHalfUp_of_not_finite habs, float_zero_eq, lt_zero_iff, unpack_abs]
    cases x.toModel.unpack <;> simp [UnpackedFloat.abs]
  | true =>
    obtain ⟨s, q, -, hx⟩ := exists_hasValue hfinite
    obtain ⟨v, hv, hs, -⟩ := hx.abs.ofFloat_eq
    rw [(hasValue_roundHalfUp hv hs places).lt_zero_iff]
    rintro ⟨⟨⟩, -⟩

end BandedReport
