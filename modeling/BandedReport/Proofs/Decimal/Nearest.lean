import BandedReport.Proofs.Decimal.Shortest
import BandedReport.Proofs.Decimal.Sign

/-!
# The double nearest to a magnitude

A magnitude is rounded to the grid of the doubles: to fifty-three binary digits, but not beyond the
finest grid, a half going to the even neighbour. The logical model of doubles computes this with two
residual bits behind a mantissa; here the same is said with fractions.

* `nearestEven` is the nearest integer, `toNearest` the nearest magnitude on the grid;
* `Representable` says that a magnitude lies on the grid, `toNearest_mono` that rounding keeps the
  order;
* `Represents` says what a mantissa and its residual bits tell about a fraction;
* `IsDouble` is an unpacked double by its sign and magnitude, `isDouble_roundWithAccuracy` the
  rounding of the model.
-/

namespace BandedReport

open Float.Model (Format UnpackedFloat)
open Float.Model.UnpackedFloat (Accuracy ExtendedMantissa Sign shiftToTargetExponent)

/-! ## §1 The nearest integer -/

/-- The integer nearest to a fraction that is not negative, a half going to the even one. -/
def nearestEven (q : ℚ) : ℕ :=
  if q < ⌊q⌋₊ + 1 / 2 then ⌊q⌋₊
  else if ⌊q⌋₊ + 1 / 2 < q then ⌊q⌋₊ + 1
  else ⌊q⌋₊ + ⌊q⌋₊ % 2

theorem nearestEven_natCast (n : ℕ) : nearestEven n = n := by
  have hlt : (n : ℚ) < n + 1 / 2 := by linarith
  rw [nearestEven, Nat.floor_natCast, if_pos hlt]

theorem floor_le_nearestEven (q : ℚ) : ⌊q⌋₊ ≤ nearestEven q := by
  unfold nearestEven
  split_ifs <;> omega

theorem nearestEven_le (q : ℚ) : nearestEven q ≤ ⌊q⌋₊ + 1 := by
  unfold nearestEven
  split_ifs <;> omega

theorem nearestEven_mono {p q : ℚ} (h : p ≤ q) : nearestEven p ≤ nearestEven q := by
  rcases (Nat.floor_mono h).lt_or_eq with hlt | heq
  · calc nearestEven p ≤ ⌊p⌋₊ + 1 := nearestEven_le p
      _ ≤ ⌊q⌋₊ := hlt
      _ ≤ nearestEven q := floor_le_nearestEven q
  · unfold nearestEven
    rw [heq]
    split_ifs <;> first | omega | linarith

theorem abs_nearestEven_sub_le {q : ℚ} (hq : 0 ≤ q) : |(nearestEven q : ℚ) - q| ≤ 1 / 2 := by
  have hfloor : (⌊q⌋₊ : ℚ) ≤ q := Nat.floor_le hq
  have hnext : q < ⌊q⌋₊ + 1 := Nat.lt_floor_add_one q
  have hodd : (⌊q⌋₊ % 2 : ℕ) ≤ (1 : ℚ) := by
    exact_mod_cast Nat.le_of_lt_succ (Nat.mod_lt _ two_pos)
  have hnonneg : (0 : ℚ) ≤ (⌊q⌋₊ % 2 : ℕ) := Nat.cast_nonneg _
  unfold nearestEven
  rw [abs_le]
  split_ifs <;> push_cast at * <;> constructor <;> linarith

theorem roundQuotient_toEven (num : ℕ) {den : ℕ} (hden : 0 < den) :
    roundQuotient .toEven num den = nearestEven (num / den) := by
  have hpos : (0 : ℚ) < den := Nat.cast_pos.mpr hden
  -- The quotient is the floor, and twice the remainder is compared with the denominator.
  have hsplit : (num : ℚ) = den * (num / den : ℕ) + (num % den : ℕ) := by
    exact_mod_cast (Nat.div_add_mod num den).symm
  have hfloor : ⌊(num : ℚ) / den⌋₊ = num / den := Nat.floor_div_eq_div num den
  have hlt : (num : ℚ) / den < (num / den : ℕ) + 1 / 2 ↔ 2 * (num % den) < den := by
    rw [div_lt_iff₀ hpos, ← Nat.cast_lt (α := ℚ)]
    push_cast
    constructor <;> intro h <;> linarith
  have hgt : ((num / den : ℕ) : ℚ) + 1 / 2 < num / den ↔ den < 2 * (num % den) := by
    rw [lt_div_iff₀ hpos, ← Nat.cast_lt (α := ℚ)]
    push_cast
    constructor <;> intro h <;> linarith
  rw [nearestEven, hfloor]
  simp only [roundQuotient, hlt, hgt]

/-! ## §2 The grid of the doubles -/

/-- The exponent of the last binary place that a double of a magnitude has. -/
def lastPlace (q : ℚ) : ℤ := max (Int.log 2 q - 52) (-1074)

/-- The magnitude rounded to the grid of the doubles. There is no greatest double here. -/
def toNearest (q : ℚ) : ℚ := nearestEven (q / 2 ^ lastPlace q) * 2 ^ lastPlace q

/-- A magnitude that has at most fifty-three binary digits and lies on the finest grid. -/
def Representable (q : ℚ) : Prop := ∃ (m : ℕ) (e : ℤ), m < 2 ^ 53 ∧ -1074 ≤ e ∧ q = m * 2 ^ e

theorem two_zpow_pos (e : ℤ) : (0 : ℚ) < 2 ^ e := zpow_pos two_pos e

theorem lastPlace_mono {p q : ℚ} (hp : 0 < p) (h : p ≤ q) : lastPlace p ≤ lastPlace q := by
  have hlog : Int.log 2 p ≤ Int.log 2 q := Int.log_mono_right hp h
  rw [lastPlace, lastPlace]
  omega

/-- A magnitude has at most fifty-three digits before its last place. -/
theorem lt_lastPlace (q : ℚ) : q < 2 ^ 53 * 2 ^ lastPlace q := by
  have hlog : q < 2 ^ (Int.log 2 q + 1) := Int.lt_zpow_succ_log_self (by decide) q
  calc q < 2 ^ (Int.log 2 q + 1) := hlog
    _ ≤ 2 ^ (53 + lastPlace q) :=
      zpow_le_zpow_right₀ (by norm_num) (by unfold lastPlace; omega)
    _ = 2 ^ 53 * 2 ^ lastPlace q := zpow_add₀ two_ne_zero ..

/-- What is larger than a magnitude has no finer places. -/
theorem Representable.exists_eq_mul {q r : ℚ} (hr : Representable r) (hq : 0 < q) (h : q ≤ r) :
    ∃ n : ℕ, r = n * 2 ^ lastPlace q := by
  obtain ⟨m, e, hm, he, rfl⟩ := hr
  -- A representable magnitude above this one has no finer grid.
  have hlt : (2 : ℚ) ^ Int.log 2 q < 2 ^ (53 + e) := by
    calc (2 : ℚ) ^ Int.log 2 q ≤ q := Int.zpow_log_le_self (by decide) hq
      _ ≤ m * 2 ^ e := h
      _ < 2 ^ (53 : ℤ) * 2 ^ e :=
        mul_lt_mul_of_pos_right (by exact_mod_cast hm) (two_zpow_pos e)
      _ = 2 ^ (53 + e) := (zpow_add₀ two_ne_zero ..).symm
  have hexponent : Int.log 2 q < 53 + e := (zpow_lt_zpow_iff_right₀ one_lt_two).mp hlt
  -- Its grid is coarser by a power of two.
  obtain ⟨k, hk⟩ : ∃ k : ℕ, e = k + lastPlace q :=
    ⟨(e - lastPlace q).toNat, by rw [lastPlace]; omega⟩
  refine ⟨m * 2 ^ k, ?_⟩
  rw [hk, zpow_add₀ two_ne_zero, zpow_natCast]
  push_cast
  ring

theorem toNearest_zero : toNearest 0 = 0 := by
  rw [toNearest, zero_div, ← Nat.cast_zero, nearestEven_natCast, Nat.cast_zero, zero_mul]

theorem toNearest_nonneg (q : ℚ) : 0 ≤ toNearest q :=
  mul_nonneg (Nat.cast_nonneg _) (two_zpow_pos _).le

theorem Representable.toNearest_eq {q : ℚ} (h : Representable q) : toNearest q = q := by
  obtain ⟨m, e, -, -, hq⟩ := id h
  have hnonneg : 0 ≤ q := hq ▸ mul_nonneg (Nat.cast_nonneg m) (two_zpow_pos e).le
  rcases hnonneg.eq_or_lt with rfl | hpos
  · exact toNearest_zero
  · obtain ⟨n, hn⟩ := h.exists_eq_mul hpos (le_refl q)
    rw [toNearest, div_eq_iff (two_zpow_pos _).ne' |>.mpr hn, nearestEven_natCast, ← hn]

/-- Rounding moves a magnitude by half a place at most. -/
theorem abs_toNearest_sub_le {q : ℚ} (hq : 0 ≤ q) :
    |toNearest q - q| ≤ 2 ^ lastPlace q / 2 := by
  have hpos := two_zpow_pos (lastPlace q)
  have hround := abs_nearestEven_sub_le (div_nonneg hq hpos.le)
  have hsub : toNearest q - q =
      (nearestEven (q / 2 ^ lastPlace q) - q / 2 ^ lastPlace q) * 2 ^ lastPlace q := by
    rw [toNearest, sub_mul, div_mul_cancel₀ _ hpos.ne']
  rw [hsub, abs_mul, abs_of_pos hpos]
  calc _ ≤ 1 / 2 * 2 ^ lastPlace q := mul_le_mul_of_nonneg_right hround hpos.le
    _ = 2 ^ lastPlace q / 2 := by ring

/-- What is at most half of the least double is rounded to zero. -/
theorem toNearest_eq_zero {q : ℚ} (hpos : 0 < q) (h : q ≤ 2 ^ (-1075 : ℤ)) : toNearest q = 0 := by
  -- The magnitude is below half of the least subnormal, so it is rounded to zero.
  have hlog : Int.log 2 q ≤ -1075 :=
    (Int.log_mono_right hpos h).trans_eq (Int.log_zpow (by decide) (-1075))
  have hplace : lastPlace q = -1074 := max_eq_right (by omega)
  have hhalf : q / 2 ^ (-1074 : ℤ) ≤ 1 / 2 := by
    rw [div_le_iff₀ (two_zpow_pos _)]
    calc q ≤ 2 ^ (-1 + -1074 : ℤ) := h
      _ = 1 / 2 * 2 ^ (-1074 : ℤ) := by
        rw [zpow_add₀ two_ne_zero]
        norm_num
  have hfloor : ⌊q / 2 ^ (-1074 : ℤ)⌋₊ = 0 := Nat.floor_eq_zero.mpr (hhalf.trans_lt (by norm_num))
  have hzero : nearestEven (q / 2 ^ (-1074 : ℤ)) = 0 := by
    rw [nearestEven, hfloor, Nat.cast_zero, zero_add, if_neg (not_lt.mpr hhalf)]
    split_ifs <;> rfl
  rw [toNearest, hplace, hzero, Nat.cast_zero, zero_mul]

theorem nearestEven_lastPlace_le (q : ℚ) : nearestEven (q / 2 ^ lastPlace q) ≤ 2 ^ 53 := by
  rw [← nearestEven_natCast (2 ^ 53)]
  refine nearestEven_mono ?_
  rw [div_le_iff₀ (two_zpow_pos _)]
  exact_mod_cast (lt_lastPlace q).le

theorem representable_toNearest (q : ℚ) : Representable (toNearest q) := by
  have hplace : -1074 ≤ lastPlace q := le_max_right _ _
  rcases (nearestEven_lastPlace_le q).lt_or_eq with hlt | heq
  · exact ⟨_, _, hlt, hplace, rfl⟩
  · -- Rounding up to one digit more leaves a power of two.
    refine ⟨2 ^ 52, lastPlace q + 1, by norm_num, by omega, ?_⟩
    rw [toNearest, heq, zpow_add₀ two_ne_zero]
    push_cast
    ring

theorem toNearest_mono {p q : ℚ} (hp : 0 ≤ p) (h : p ≤ q) : toNearest p ≤ toNearest q := by
  rcases hp.eq_or_lt with rfl | hpos
  · rw [toNearest_zero]
    exact toNearest_nonneg q
  -- At the same last place, rounding to integers is monotone.
  rcases (lastPlace_mono hpos h).eq_or_lt with heq | hlt
  · have hround : nearestEven (p / 2 ^ lastPlace q) ≤ nearestEven (q / 2 ^ lastPlace q) :=
      nearestEven_mono (div_le_div_of_nonneg_right h (two_zpow_pos _).le)
    rw [toNearest, toNearest, heq]
    exact mul_le_mul_of_nonneg_right (Nat.cast_le.mpr hround) (two_zpow_pos _).le
  · -- A power of two lies between the magnitudes, and neither is rounded past it.
    have hlarge : lastPlace q = Int.log 2 q - 52 := by
      unfold lastPlace at hlt ⊢
      omega
    obtain ⟨k, hk⟩ : ∃ k : ℕ, lastPlace q + 52 = k + lastPlace p :=
      ⟨(lastPlace q + 52 - lastPlace p).toNat, by omega⟩
    have hbelow : p ≤ (2 ^ k : ℕ) * 2 ^ lastPlace p := by
      have hplace : Int.log 2 p - 52 ≤ lastPlace p := le_max_left _ _
      calc p ≤ 2 ^ (Int.log 2 p + 1) := (Int.lt_zpow_succ_log_self (by decide) p).le
        _ ≤ 2 ^ (k + lastPlace p) := zpow_le_zpow_right₀ (by norm_num) (by omega)
        _ = (2 ^ k : ℕ) * 2 ^ lastPlace p := by
          rw [zpow_add₀ two_ne_zero, zpow_natCast, Nat.cast_pow, Nat.cast_ofNat]
    have habove : (2 ^ 52 : ℕ) * 2 ^ lastPlace q ≤ q := by
      have hlog : (2 : ℚ) ^ Int.log 2 q ≤ q := Int.zpow_log_le_self (by decide) (hpos.trans_le h)
      rw [show Int.log 2 q = 52 + lastPlace q by omega, zpow_add₀ two_ne_zero] at hlog
      exact_mod_cast hlog
    -- The smaller is rounded to the power at most, and the larger to the power at least.
    calc toNearest p ≤ (2 ^ k : ℕ) * 2 ^ lastPlace p := by
          refine mul_le_mul_of_nonneg_right (Nat.cast_le.mpr ?_) (two_zpow_pos _).le
          rw [← nearestEven_natCast (2 ^ k)]
          exact nearestEven_mono ((div_le_iff₀ (two_zpow_pos _)).mpr hbelow)
      _ = (2 ^ 52 : ℕ) * 2 ^ lastPlace q := by
          push_cast
          rw [← zpow_natCast, ← zpow_add₀ two_ne_zero, ← hk, Int.add_comm, zpow_add₀ two_ne_zero]
          norm_num
      _ ≤ toNearest q := by
          refine mul_le_mul_of_nonneg_right (Nat.cast_le.mpr ?_) (two_zpow_pos _).le
          rw [← nearestEven_natCast (2 ^ 52)]
          exact nearestEven_mono ((le_div_iff₀ (two_zpow_pos _)).mpr habove)

/-! ## §3 Mantissas with residual bits -/

theorem mantissa_ofMantissaAndAccuracy (m : ℕ) (accuracy : Accuracy) :
    (ExtendedMantissa.ofMantissaAndAccuracy m accuracy).mantissa = m := by
  cases accuracy with
  | exact => rfl
  | inexact o => cases o <;> rfl

theorem mantissa_shift (em : ExtendedMantissa) (k : ℕ) :
    (em >>> k).mantissa = em.mantissa / 2 ^ k := by
  induction k with
  | zero => exact (Nat.div_one _).symm
  | succ k ih =>
    show (em >>> k).mantissa / 2 = _
    rw [ih, Nat.div_div_eq_div_mul, Nat.pow_succ]

/-- What a mantissa and its two residual bits tell about a fraction: the bits compare what is behind
the mantissa with one half. -/
def Represents (em : ExtendedMantissa) (q : ℚ) : Prop :=
  match em.roundBit, em.stickyBit with
  | false, false => q = em.mantissa
  | false, true => em.mantissa < q ∧ q < em.mantissa + 1 / 2
  | true, false => q = em.mantissa + 1 / 2
  | true, true => em.mantissa + 1 / 2 < q ∧ q < em.mantissa + 1

namespace Represents

variable {em : ExtendedMantissa} {q : ℚ}

theorem bounds (h : Represents em q) : em.mantissa ≤ q ∧ q < em.mantissa + 1 := by
  obtain ⟨m, _ | _, _ | _⟩ := em <;> simp only [Represents] at h ⊢ <;>
    constructor <;> linarith

theorem nonneg (h : Represents em q) : 0 ≤ q := (Nat.cast_nonneg _).trans h.bounds.1

theorem floor (h : Represents em q) : ⌊q⌋₊ = em.mantissa :=
  (Nat.floor_eq_iff h.nonneg).mpr h.bounds

theorem roundedMantissa_eq (h : Represents em q) : em.roundedMantissa = nearestEven q := by
  rw [nearestEven, h.floor]
  obtain ⟨m, _ | _, _ | _⟩ := em <;>
    simp only [Represents, ExtendedMantissa.roundedMantissa, ExtendedMantissa.accuracy,
      Accuracy.roundToNearestEven] at h ⊢ <;>
    split_ifs <;> first | rfl | linarith

/-- A bit that is shifted out becomes the round bit, and the two bits before become one. -/
theorem shiftRightOne (h : Represents em q) : Represents em.shiftRightOne (q / 2) := by
  obtain ⟨m, r, s⟩ := em
  have hsplit : (m : ℚ) = 2 * (m / 2 : ℕ) + (m % 2 : ℕ) := by
    exact_mod_cast (Nat.div_add_mod m 2).symm
  rcases Nat.mod_two_eq_zero_or_one m with hm | hm <;> rw [hm] at hsplit <;>
    cases r <;> cases s <;>
    simp only [Represents, ExtendedMantissa.shiftRightOne, hm, bne_self_eq_false, Bool.or_true,
      Bool.or_false, Nat.cast_zero, Nat.cast_one, show (1 != 0) = true from rfl]
      at h hsplit ⊢ <;>
    first | linarith | (constructor <;> linarith)

theorem shiftRight (h : Represents em q) (k : ℕ) : Represents (em >>> k) (q / 2 ^ k) := by
  induction k with
  | zero => rwa [pow_zero, div_one]
  | succ k ih =>
    rw [pow_succ, ← div_div]
    exact ih.shiftRightOne

theorem exact (m : ℕ) : Represents (.ofMantissaAndAccuracy m .exact) m := rfl

/-- A quotient is told by its integer part and by what is left over. -/
theorem fraction (num : ℕ) {den : ℕ} (hden : 0 < den) :
    Represents (.ofMantissaAndAccuracy (num / den)
      (UnpackedFloat.accuracyOfFraction (num % den) den)) (num / den) := by
  have hpos : (0 : ℚ) < den := Nat.cast_pos.mpr hden
  -- The quotient and the rest make up the fraction.
  have hsplit : (num : ℚ) = (num / den : ℕ) * den + (num % den : ℕ) := by
    exact_mod_cast (Nat.div_add_mod' num den).symm
  have hmod : ((num % den : ℕ) : ℚ) < den := Nat.cast_lt.mpr (Nat.mod_lt num hden)
  unfold UnpackedFloat.accuracyOfFraction
  split_ifs with hzero
  · -- Nothing left over means that the quotient is exact.
    rw [hzero, Nat.cast_zero, add_zero] at hsplit
    exact (div_eq_iff hpos.ne').mpr hsplit
  · have hrest : (0 : ℚ) < (num % den : ℕ) := Nat.cast_pos.mpr (Nat.pos_of_ne_zero hzero)
    -- What is left over is compared with half the denominator.
    cases hcompare : compare (2 * (num % den)) den with
    | lt =>
      have hhalf : (2 * (num % den : ℕ) : ℚ) < den := by
        exact_mod_cast Nat.compare_eq_lt.mp hcompare
      simp only [Represents, ExtendedMantissa.ofMantissaAndAccuracy]
      exact ⟨(lt_div_iff₀ hpos).mpr (by linarith), (div_lt_iff₀ hpos).mpr (by linarith)⟩
    | eq =>
      have hhalf : (2 * (num % den : ℕ) : ℚ) = den := by
        exact_mod_cast Nat.compare_eq_eq.mp hcompare
      simp only [Represents, ExtendedMantissa.ofMantissaAndAccuracy]
      exact (div_eq_iff hpos.ne').mpr (by linarith)
    | gt =>
      have hhalf : (den : ℚ) < 2 * (num % den : ℕ) := by
        exact_mod_cast Nat.compare_eq_gt.mp hcompare
      simp only [Represents, ExtendedMantissa.ofMantissaAndAccuracy]
      exact ⟨(lt_div_iff₀ hpos).mpr (by linarith), (div_lt_iff₀ hpos).mpr (by linarith)⟩

end Represents

/-! ## §4 Rounding an unpacked double -/

/-- The unpacked double of a sign and a magnitude, in the form in which it is packed. -/
inductive IsDouble (s : Sign) : ℚ → UnpackedFloat → Prop
  | zero : IsDouble s 0 (.zero s)
  | finite {m : ℕ} {e : ℤ} (hpos : 0 < m) (hm : m < 2 ^ 53) (he : -1074 ≤ e)
      (hnormal : 2 ^ 52 ≤ m ∨ e = -1074) : IsDouble s (m * 2 ^ e) (.finite s m e hpos)

theorem shiftToTargetExponent_eq_shift (m : ℕ) (e : ℤ) (accuracy : Accuracy) :
    ∃ k : ℕ, e + k = max (max ((m.log2 : ℤ) + e - 52) (-1074)) e ∧
      shiftToTargetExponent .binary64 m e accuracy =
        (ExtendedMantissa.ofMantissaAndAccuracy m accuracy >>> k, e + k) := by
  refine ⟨(max ((m.log2 : ℤ) + 1 + e - 53) (-1074) - e).toNat, by omega, rfl⟩

/-- The place to which a mantissa is shifted is the last place of what it tells about. -/
theorem lastPlace_eq {m : ℕ} {e : ℤ} {accuracy : Accuracy} {q : ℚ} (hq : 0 < q)
    (h : Represents (.ofMantissaAndAccuracy m accuracy) q) (hroom : 52 ≤ m.log2 ∨ e ≤ -1074) :
    lastPlace (q * 2 ^ e) = max ((m.log2 : ℤ) + e - 52) (-1074) := by
  obtain ⟨hlow, hhigh⟩ := mantissa_ofMantissaAndAccuracy m accuracy ▸ h.bounds
  rcases Nat.eq_zero_or_pos m with rfl | hpos
  · -- Nothing is left of the mantissa, and the magnitude is below the finest grid.
    have hlog : Int.log 2 (q * 2 ^ e) < e := by
      rw [← Int.lt_zpow_iff_log_lt (by decide) (mul_pos hq (two_zpow_pos e))]
      rw [Nat.cast_zero, zero_add] at hhigh
      exact_mod_cast mul_lt_of_lt_one_left (two_zpow_pos e) hhigh
    have hzero : Nat.log2 0 = 0 := rfl
    rw [hzero] at hroom ⊢
    unfold lastPlace
    omega
  · -- Otherwise the mantissa has the logarithm of the magnitude.
    have hlog : Int.log 2 (q * 2 ^ e) = m.log2 + e := by
      have hle : ((2 : ℕ) : ℚ) ^ ((m.log2 : ℤ) + e) ≤ q * 2 ^ e := by
        rw [zpow_add₀ (by norm_num), zpow_natCast]
        refine mul_le_mul_of_nonneg_right (le_trans ?_ hlow) (two_zpow_pos e).le
        exact_mod_cast Nat.log2_self_le hpos.ne'
      have hlt : q * 2 ^ e < ((2 : ℕ) : ℚ) ^ ((m.log2 : ℤ) + e + 1) := by
        rw [add_right_comm, zpow_add₀ (by norm_num), ← Nat.cast_succ, zpow_natCast]
        refine mul_lt_mul_of_pos_right (hhigh.trans_le ?_) (two_zpow_pos e)
        exact_mod_cast (Nat.lt_log2_self : m < 2 ^ (m.log2 + 1))
      have hge := (Int.zpow_le_iff_le_log (by decide) (mul_pos hq (two_zpow_pos e))).mp hle
      have hgt := (Int.lt_zpow_iff_log_lt (by decide) (mul_pos hq (two_zpow_pos e))).mp hlt
      omega
    unfold lastPlace
    omega

/-- The shift after rounding drops at most the bit that rounding may have added, which is zero. -/
private theorem shift_rounded {r : ℕ} {e : ℤ} (hr : r ≤ 2 ^ 53) (he : -1074 ≤ e) :
    let shifted := shiftToTargetExponent .binary64 r e .exact
    shifted.1.mantissa < 2 ^ 53 ∧ e ≤ shifted.2 ∧
      (shifted.1.mantissa = r ∧ shifted.2 = e ∨ shifted.1.mantissa = 2 ^ 52) ∧
      (r * 2 ^ e : ℚ) = shifted.1.mantissa * 2 ^ shifted.2 := by
  obtain ⟨k, hk, hshift⟩ := shiftToTargetExponent_eq_shift r e .exact
  rw [hshift]
  dsimp only
  rw [mantissa_shift, mantissa_ofMantissaAndAccuracy]
  -- A mantissa that is not full needs no shift.
  rcases hr.lt_or_eq with hlt | rfl
  · have hlog : r.log2 ≤ 52 := by
      rcases Nat.eq_zero_or_pos r with rfl | hpos
      · exact Nat.zero_le _
      · exact Nat.le_of_lt_succ ((Nat.log2_lt hpos.ne').mpr hlt)
    obtain rfl : k = 0 := by omega
    simpa using hlt
  · -- One that was rounded up to the next power is shifted by one.
    have hlog : (2 ^ 53).log2 = 53 := Nat.log2_two_pow
    obtain rfl : k = 1 := by
      rw [hlog] at hk
      omega
    refine ⟨by norm_num, by omega, .inr (by norm_num), ?_⟩
    rw [zpow_add₀ two_ne_zero]
    push_cast
    ring

/-- The units of the last place are counted after a shift. -/
private theorem toNearest_eq_of_shift {q : ℚ} (hq : 0 ≤ q) {e : ℤ} {k : ℕ}
    (hplace : 0 < q → lastPlace (q * 2 ^ e) = e + k) :
    toNearest (q * 2 ^ e) = nearestEven (q / 2 ^ k) * 2 ^ (e + k) := by
  rcases hq.eq_or_lt with rfl | hpos
  · rw [zero_mul, toNearest_zero, zero_div, ← Nat.cast_zero, nearestEven_natCast, Nat.cast_zero,
      zero_mul]
  · have hscaled : q * 2 ^ e / 2 ^ (e + k) = q / 2 ^ k := by
      rw [zpow_add₀ two_ne_zero, zpow_natCast, mul_comm,
        mul_div_mul_left _ _ (two_zpow_pos e).ne']
    rw [toNearest, hplace hpos, hscaled]

/-- A shift leaves at most fifty-three digits, and rounding may make it the next power of two. -/
private theorem nearestEven_shift_le {m k : ℕ} {q : ℚ} (hq : q ≤ m + 1)
    (hk : m.log2 + 1 ≤ 53 + k) : nearestEven (q / 2 ^ k) ≤ 2 ^ 53 := by
  have hm : m + 1 ≤ 2 ^ 53 * 2 ^ k := by
    rw [← pow_add]
    exact Nat.lt_log2_self.trans_le (Nat.pow_le_pow_right (by decide) hk)
  rw [← nearestEven_natCast (2 ^ 53)]
  refine nearestEven_mono ((div_le_iff₀ (by positivity)).mpr (hq.trans ?_))
  exact_mod_cast hm

/-- A shift that leaves fifty-three digits leaves a full mantissa. -/
private theorem le_nearestEven_shift {m k : ℕ} {q : ℚ} (hq : m ≤ q) (hpos : 0 < m)
    (hk : 52 + k ≤ m.log2) : 2 ^ 52 ≤ nearestEven (q / 2 ^ k) := by
  have hm : 2 ^ 52 * 2 ^ k ≤ m := by
    rw [← pow_add]
    exact (Nat.pow_le_pow_right (by decide) hk).trans (Nat.log2_self_le hpos.ne')
  rw [← nearestEven_natCast (2 ^ 52)]
  refine nearestEven_mono ((le_div_iff₀ (by positivity)).mpr (le_trans ?_ hq))
  exact_mod_cast hm

/-- A mantissa with enough digits is rounded to the double nearest to what it tells about. -/
theorem isDouble_roundWithAccuracy (s : Sign) {m : ℕ} {e : ℤ} {accuracy : Accuracy} {q : ℚ}
    (h : Represents (.ofMantissaAndAccuracy m accuracy) q) (hroom : 52 ≤ m.log2 ∨ e ≤ -1074) :
    IsDouble s (toNearest (q * 2 ^ e))
      (UnpackedFloat.roundWithAccuracy .binary64 s m e accuracy) := by
  -- The first shift brings the mantissa to the last place of the magnitude.
  obtain ⟨k, hk, hfirst⟩ := shiftToTargetExponent_eq_shift m e accuracy
  have hplace : e + k = max ((m.log2 : ℤ) + e - 52) (-1074) := by omega
  obtain ⟨hlow, hhigh⟩ := mantissa_ofMantissaAndAccuracy m accuracy ▸ h.bounds
  -- The rounded mantissa counts units of the last place.
  have hcount : (ExtendedMantissa.ofMantissaAndAccuracy m accuracy >>> k).roundedMantissa =
      nearestEven (q / 2 ^ k) := (h.shiftRight k).roundedMantissa_eq
  have hnearest := toNearest_eq_of_shift h.nonneg
    fun hq => (lastPlace_eq hq h hroom).trans hplace.symm
  have hle : nearestEven (q / 2 ^ k) ≤ 2 ^ 53 := nearestEven_shift_le hhigh.le (by omega)
  -- What is rounded is full, unless the last place is the least there is.
  have hfull : 2 ^ 52 ≤ nearestEven (q / 2 ^ k) ∨ e + k = -1074 := by
    by_cases hmin : e + k = -1074
    · exact .inr hmin
    · have hlog : 52 + k = m.log2 := by omega
      have hpos : 0 < m := Nat.pos_of_ne_zero fun hzero => by
        have hlogzero : Nat.log2 0 = 0 := rfl
        rw [hzero, hlogzero] at hlog
        omega
      exact .inl (le_nearestEven_shift hlow hpos hlog.le)
  rw [UnpackedFloat.roundWithAccuracy, hfirst]
  dsimp only
  rw [hcount, hnearest]
  -- The second shift drops nothing but a digit that rounding added.
  obtain ⟨hm, he, hsame, hvalue⟩ := shift_rounded hle (show -1074 ≤ e + k by omega)
  rw [hvalue]
  -- Either nothing is left, or what is left is a double.
  split
  · rename_i hzero
    rw [hzero, Nat.cast_zero, zero_mul]
    exact .zero
  · refine .finite _ hm (by omega) ?_
    rcases hsame with ⟨hr, hexponent⟩ | hpower
    · rwa [hr, hexponent]
    · exact .inl hpower.ge

end BandedReport
