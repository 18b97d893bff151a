import BandedReport.Proofs.Decimal.Arithmetic

/-!
# Sums and differences of doubles

The exact value of a finite double is its magnitude under its sign. The sum of two such doubles is
the double nearest to the exact sum, and so is the difference; integers up to the size of a mantissa
are added and subtracted without an error.

* `IsDouble.add` is the rounding of a sum, and `float_sub_eq` makes a difference a sum;
* `Worth` says what a double is worth, its sign included;
* `Worth.addInteger`, `Worth.subInteger`, `Worth.integerPart_eq` are the laws of integers.
-/

namespace BandedReport

open Float.Model (UnpackedFloat)
open Float.Model.UnpackedFloat (Sign decreaseExponent)

/-! ## §1 Magnitudes under a sign -/

/-- A magnitude under a sign. -/
def signed : Sign → ℚ → ℚ
  | .positive, q => q
  | .negative, q => -q

theorem abs_signed (s : Sign) {q : ℚ} (hq : 0 ≤ q) : |signed s q| = q := by
  cases s with
  | positive => exact abs_of_nonneg hq
  | negative => exact (abs_neg q).trans (abs_of_nonneg hq)

theorem signed_zero (s : Sign) : signed s 0 = 0 := by
  cases s with
  | positive => rfl
  | negative => exact neg_zero

theorem signed_neg (s : Sign) (q : ℚ) : signed (-s) q = -signed s q := by
  cases s with
  | positive => rfl
  | negative => exact (neg_neg q).symm

theorem signed_mul (s : Sign) (p q : ℚ) : signed s (p * q) = signed s p * q := by
  cases s with
  | positive => rfl
  | negative => exact (neg_mul p q).symm

theorem cast_apply (s : Sign) (n : ℤ) : (s.apply n : ℚ) = signed s n := by
  cases s with
  | positive => rfl
  | negative => exact Int.cast_neg n

/-! ## §2 Sums of unpacked doubles -/

/-- The unpacked double nearest to an exact value. -/
def IsRounded (r : ℚ) (u : UnpackedFloat) : Prop :=
  ∃ s, IsDouble s (toNearest |r|) u ∧ signed s |r| = r

variable {s t : Sign} {p q r : ℚ} {u v : UnpackedFloat}

theorem IsDouble.isRounded (h : IsDouble s q u) : IsRounded (signed s q) u := by
  refine ⟨s, ?_, ?_⟩
  · rwa [abs_signed s h.nonneg, h.representable.toNearest_eq]
  · rw [abs_signed s h.nonneg]

theorem isRounded_zero (s : Sign) : IsRounded 0 (.zero s) :=
  ⟨s, by rw [abs_zero, toNearest_zero]; exact .zero, by rw [abs_zero, signed_zero]⟩

/-- A mantissa of either sign is rounded to the double nearest to it. -/
theorem isRounded_normalize (n e : ℤ) :
    IsRounded (n * 2 ^ e) (UnpackedFloat.normalize .binary64 n e .positive) := by
  have hpower : (0 : ℚ) < 2 ^ e := two_zpow_pos e
  rcases lt_trichotomy n 0 with hneg | rfl | hpos
  · -- A negative sum is rounded as its magnitude, and gets the sign again.
    obtain ⟨m, hm⟩ := Int.eq_ofNat_of_zero_le (show 0 ≤ -n by omega)
    have habs : |(n * 2 ^ e : ℚ)| = m * 2 ^ e := by
      obtain rfl : n = -m := by omega
      rw [Int.cast_neg, neg_mul, abs_neg, Int.cast_natCast, abs_of_nonneg (by positivity)]
    refine ⟨.negative, ?_, ?_⟩
    · rw [habs, UnpackedFloat.normalize, Int.compare_eq_lt.mpr hneg, hm]
      exact isDouble_round .negative (by omega) e
    · rw [habs, signed]
      obtain rfl : n = -m := by omega
      push_cast
      ring
  · -- A sum that cancels is the positive zero.
    rw [Int.cast_zero, zero_mul]
    exact isRounded_zero .positive
  · -- A positive sum is its magnitude.
    obtain ⟨m, rfl⟩ := Int.eq_ofNat_of_zero_le hpos.le
    have habs : |((m : ℤ) * 2 ^ e : ℚ)| = m * 2 ^ e := by
      rw [Int.cast_natCast, abs_of_nonneg (by positivity)]
    refine ⟨.positive, ?_, ?_⟩
    · rw [habs, UnpackedFloat.normalize, Int.compare_eq_gt.mpr hpos]
      exact isDouble_round .positive (by omega) e
    · rw [habs, signed, Int.cast_natCast]

/-- A mantissa that is brought to a smaller exponent keeps its worth. -/
theorem decreaseExponent_mul (m : ℕ) {e target : ℤ} (h : target ≤ e) :
    ((decreaseExponent m e target).1 * 2 ^ target : ℚ) = m * 2 ^ e := by
  obtain ⟨k, hk⟩ := Int.eq_ofNat_of_zero_le (show 0 ≤ e - target by omega)
  obtain rfl : e = target + k := by omega
  have hshift : (decreaseExponent m (target + k) target).1 = m * 2 ^ k := by
    rw [decreaseExponent, ← Nat.shiftLeft_eq, hk]
    rfl
  rw [hshift, zpow_add₀ two_ne_zero, zpow_natCast]
  push_cast
  ring

theorem IsDouble.add (hu : IsDouble s p u) (hv : IsDouble t q v) :
    IsRounded (signed s p + signed t q) (u.add .binary64 v) := by
  -- Zero adds nothing to the other number.
  cases hu with
  | zero =>
    rw [signed_zero, zero_add]
    cases hv with
    | zero =>
      rw [signed_zero]
      simp only [UnpackedFloat.add]
      split <;> exact isRounded_zero _
    | finite hpos hm he hnormal => exact (IsDouble.finite hpos hm he hnormal).isRounded
  | @finite m e hpos hm he hnormal =>
    cases hv with
    | zero =>
      rw [signed_zero, add_zero]
      exact (IsDouble.finite hpos hm he hnormal).isRounded
    | @finite n f hpos' hn hf hnormal' =>
      -- Both mantissas are brought to the smaller exponent, and their sum is rounded.
      have hsum := isRounded_normalize
        (s.apply (decreaseExponent m e (min e f)).1 + t.apply (decreaseExponent n f (min e f)).1)
        (min e f)
      rwa [Int.cast_add, add_mul, cast_apply, cast_apply, Int.cast_natCast, Int.cast_natCast,
        ← signed_mul, ← signed_mul, decreaseExponent_mul m (min_le_left e f),
        decreaseExponent_mul n (min_le_right e f)] at hsum

/-- To subtract is to add what has the other sign. -/
theorem sub_eq_add_neg_unpacked (u v : UnpackedFloat) :
    u.sub .binary64 v = u.add .binary64 v.neg := by
  cases u with
  | notANumber => rfl
  | infinity s | zero s => cases v <;> rfl
  | finite s m e hm =>
    cases v with
    | notANumber | infinity | zero => rfl
    | finite t n f hn =>
      -- For finite numbers the sign is applied to the mantissa.
      have happly : s.apply (decreaseExponent m e (min e f)).1 -
          t.apply (decreaseExponent n f (min e f)).1 =
          s.apply (decreaseExponent m e (min e f)).1 +
            (-t).apply (decreaseExponent n f (min e f)).1 := by
        cases t with
        | positive => exact Int.sub_eq_add_neg
        | negative => exact Int.sub_neg _ _
      exact congrArg (UnpackedFloat.normalize .binary64 · (min e f) .positive) happly

/-! ## §3 Doubles -/

theorem float_sub_eq (x y : Float) : x - y = x + -y := by
  refine float_eq_of_unpack ?_
  show (Float.Model.pack (x.toModel.unpack.sub .binary64 y.toModel.unpack)).unpack =
    (Float.Model.pack (x.toModel.unpack.add .binary64 (-y).toModel.unpack)).unpack
  rw [unpack_neg, sub_eq_add_neg_unpacked]

/-- The double is finite and has this exact value. -/
def Worth (x : Float) (r : ℚ) : Prop := ∃ s q, HasValue x s q ∧ signed s q = r

theorem HasValue.worth {x : Float} (h : HasValue x s q) : Worth x (signed s q) := ⟨s, q, h, rfl⟩

/-- Up to the size of a mantissa, natural numbers are exact. -/
theorem worth_ofNat {n : ℕ} (hn : n ≤ 2 ^ 53) : Worth (Float.ofNat n) (n : ℤ) := by
  rw [Int.cast_natCast]
  exact (hasValue_ofNat hn).worth

theorem representable_abs_intCast {n : ℤ} (hn : |n| ≤ 2 ^ 53) :
    Representable |(n : ℚ)| ∧ |(n : ℚ)| < doubleRange := by
  have habs : |(n : ℚ)| = n.natAbs := by rw [← Int.cast_abs, Int.abs_eq_natAbs, Int.cast_natCast]
  have hsmall : n.natAbs ≤ 2 ^ 53 := by
    rw [Int.abs_eq_natAbs] at hn
    exact_mod_cast hn
  rw [habs]
  refine ⟨representable_natCast hsmall, ?_⟩
  calc (n.natAbs : ℚ) ≤ 2 ^ (53 : ℤ) := by exact_mod_cast hsmall
    _ < doubleRange := zpow_lt_zpow_right₀ one_lt_two (by decide)

namespace Worth

variable {x y : Float}

theorem isFinite (h : Worth x r) : x.isFinite = true := by
  obtain ⟨s, q, hvalue, -⟩ := h
  exact hvalue.isFinite

theorem neg (h : Worth x r) : Worth (-x) (-r) := by
  obtain ⟨s, q, hvalue, rfl⟩ := h
  exact signed_neg s q ▸ hvalue.neg.worth

/-- A sum on the grid of doubles is exact. -/
theorem add (hx : Worth x p) (hy : Worth y q) (hgrid : Representable |p + q|)
    (hrange : |p + q| < doubleRange) : Worth (x + y) (p + q) := by
  obtain ⟨s, a, hx, rfl⟩ := hx
  obtain ⟨t, b, hy, rfl⟩ := hy
  obtain ⟨w, hdouble, hsign⟩ := IsDouble.add hx hy
  have hnearest : IsNearest (x + y) w |signed s a + signed t b| := hdouble.isNearest rfl
  exact ⟨w, _, hnearest.hasValue_of_representable hgrid hrange, hsign⟩

theorem addInteger {m n : ℤ} (hx : Worth x m) (hy : Worth y n) (h : |m + n| ≤ 2 ^ 53) :
    Worth (x + y) (m + n : ℤ) := by
  obtain ⟨hgrid, hrange⟩ := representable_abs_intCast h
  rw [Int.cast_add] at hgrid hrange ⊢
  exact hx.add hy hgrid hrange

theorem subInteger {m n : ℤ} (hx : Worth x m) (hy : Worth y n) (h : |m - n| ≤ 2 ^ 53) :
    Worth (x - y) (m - n : ℤ) := by
  have hneg : Worth (-y) (-n : ℤ) := by
    rw [Int.cast_neg]
    exact hy.neg
  rw [float_sub_eq, Int.sub_eq_add_neg]
  exact hx.addInteger hneg (by rwa [← Int.sub_eq_add_neg])

/-- An integer has no fraction to drop. -/
theorem integerPart_eq {n : ℤ} (h : Worth x n) :
    ∃ v, Binary.ofFloat x = .finite v ∧ v.isIntegral = true ∧ v.integerPart = n := by
  -- The integer is the signed size of the double.
  obtain ⟨s, q, hvalue, hsigned⟩ := h
  obtain ⟨v, hv, hsign, -, rfl⟩ := hvalue.ofFloat_eq
  obtain ⟨hden, hsize⟩ := v.fraction_eq
  have hsize' : v.size = n.natAbs := by
    rw [← abs_signed s (IsDouble.nonneg hvalue), hsigned, ← Int.cast_abs, Int.abs_eq_natAbs,
      Int.cast_natCast]
  -- The fraction of an integer is the integer, without a remainder.
  have hnum : v.fraction.1 = n.natAbs * v.fraction.2 := by
    rw [← hsize, div_eq_iff (Nat.cast_ne_zero.mpr hden.ne')] at hsize'
    exact_mod_cast hsize'
  refine ⟨v, hv, by simp [Binary.isIntegral, hnum], ?_⟩
  -- The whole part of the quotient is the magnitude, and the sign is that of the integer.
  have hpart : v.integerPart = if v.negative then -(n.natAbs : ℤ) else n.natAbs := by
    rw [Binary.integerPart]
    simp only [hnum, Nat.mul_div_cancel _ hden]
  have hcast : ((if v.negative then -(n.natAbs : ℤ) else n.natAbs : ℤ) : ℚ) = n := by
    rw [← hsigned, hsize', hsign]
    cases s with
    | positive => exact Int.cast_natCast _
    | negative => exact (Int.cast_neg _).trans (congrArg Neg.neg (Int.cast_natCast _))
  rw [hpart]
  exact Int.cast_injective hcast

end Worth

end BandedReport
