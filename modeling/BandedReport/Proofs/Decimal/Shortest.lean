import Mathlib.Algebra.Order.Floor.Semifield
import Mathlib.Data.Rat.Floor
import Mathlib.Tactic.FieldSimp
import Mathlib.Tactic.Linarith
import Mathlib.Tactic.NormNum
import Mathlib.Tactic.Positivity
import Mathlib.Tactic.Ring
import BandedReport.Decimal.Rounding

/-!
# Rounded decimals as fractions

What rounding on the decimal text computes, said without digits: the number of units of a place
nearest to a fraction, a half going up. The shortest decimal of a double has a bounded coefficient,
since the search for it starts on a grid coarser than the double and refines it a bounded number of
times.

* `Decimal.size` is the magnitude of a decimal as a fraction;
* `roundQuotient_up`, `Decimal.coefficient_roundTo` say what rounding gives;
* `Binary.coefficient_shortest_le` bounds the coefficient of a shortest decimal.
-/

namespace BandedReport

/-! ## §1 Digits and powers of ten -/

theorem length_digitsOf_le_iff {n k : Nat} (hk : 0 < k) :
    (digitsOf n).length ≤ k ↔ n < 10 ^ k :=
  Nat.length_toDigits_le_iff (by decide) hk

/-- A power of ten as a fraction of natural ones. -/
theorem ten_zpow_eq (e : Int) : (10 : ℚ) ^ e = 10 ^ e.toNat / 10 ^ (-e).toNat := by
  rcases Int.le_total 0 e with h | h
  · obtain ⟨n, rfl⟩ := Int.eq_ofNat_of_zero_le h
    simp
  · obtain ⟨n, hn⟩ := Int.eq_ofNat_of_zero_le (Int.neg_nonneg.mpr h)
    obtain rfl : e = -n := by omega
    simp

/-! ## §2 Rounded quotients -/

theorem roundQuotient_le (tie : Tie) (num den : Nat) :
    roundQuotient tie num den ≤ num / den + 1 := by
  unfold roundQuotient
  dsimp only
  split
  · omega
  · split
    · omega
    · cases tie with
      | up => exact Nat.le_refl _
      | toEven => dsimp only; omega

theorem floor_div_add_half (num : Nat) {den : Nat} (hden : 0 < den) :
    ⌊(num / den : ℚ) + 1 / 2⌋₊ = (2 * num + den) / (2 * den) := by
  have hcast : (num / den : ℚ) + 1 / 2 = ((2 * num + den : Nat) : ℚ) / ((2 * den : Nat) : ℚ) := by
    have hne : (den : ℚ) ≠ 0 := Nat.cast_ne_zero.mpr hden.ne'
    push_cast
    field_simp
  rw [hcast, Nat.floor_div_eq_div]

/-- With halves going up, a rounded quotient is the nearest integer. -/
theorem roundQuotient_up (num : Nat) {den : Nat} (hden : 0 < den) :
    roundQuotient .up num den = ⌊(num / den : ℚ) + 1 / 2⌋₊ := by
  -- Rounding half up is the floor of a fraction with twice the denominator.
  have hdiv : roundQuotient .up num den = (2 * num + den) / (2 * den) := by
    have hnum : den * (num / den) + num % den = num := Nat.div_add_mod num den
    have hmod : num % den < den := Nat.mod_lt num hden
    symm
    unfold roundQuotient
    dsimp only
    generalize num / den = whole at *
    generalize num % den = rest at *
    split
    · exact Nat.div_eq_of_lt_le (by linarith) (by linarith)
    · rw [ite_self]
      exact Nat.div_eq_of_lt_le (by linarith) (by linarith)
  rw [hdiv, floor_div_add_half num hden]

theorem floor_natCast_add_half (n : Nat) : ⌊(n : ℚ) + 1 / 2⌋₊ = n := by
  rw [Nat.floor_eq_iff (by positivity)]
  constructor <;> linarith

/-! ## §3 Rounded decimals -/

namespace Decimal

/-- The magnitude of a decimal as a fraction. -/
def size (d : Decimal) : ℚ := d.coefficient * 10 ^ d.exponent

theorem size_mul_pow (d : Decimal) (places : Nat) :
    d.size * 10 ^ places = d.coefficient * 10 ^ (d.exponent + places) := by
  rw [size, mul_assoc, ← zpow_natCast, ← zpow_add₀ (by norm_num)]

theorem size_le {d : Decimal} {bound : Nat} {e : Int} (hcoefficient : d.coefficient ≤ bound)
    (hexponent : d.exponent ≤ e) : d.size ≤ bound * 10 ^ e := by
  have hbound : (d.coefficient : ℚ) ≤ bound := Nat.cast_le.mpr hcoefficient
  have hpower : (10 : ℚ) ^ d.exponent ≤ 10 ^ e := zpow_le_zpow_right₀ (by norm_num) hexponent
  exact mul_le_mul hbound hpower (zpow_nonneg (by norm_num) _) (Nat.cast_nonneg _)

theorem coefficient_roundTo_le (places : Nat) (d : Decimal) :
    (d.roundTo places).coefficient ≤ d.coefficient + 1 := by
  rw [roundTo]
  split
  · exact Nat.le_succ _
  · exact (roundQuotient_le .up _ _).trans (Nat.succ_le_succ (Nat.div_le_self _ _))

/-- A decimal rounded to a number of places is the nearest multiple of the last place. -/
theorem coefficient_roundTo (places : Nat) (d : Decimal) :
    (d.roundTo places).coefficient * 10 ^ ((d.roundTo places).exponent + places).toNat =
      ⌊d.size * 10 ^ places + 1 / 2⌋₊ := by
  rw [size_mul_pow, roundTo]
  split
  · -- There are no further places: the decimal is such a multiple.
    rename_i hplaces
    obtain ⟨n, hn⟩ : ∃ n : Nat, d.exponent + places = n :=
      Int.eq_ofNat_of_zero_le (by rw [Decimal.places] at hplaces; omega)
    have hsize : (d.coefficient * 10 ^ (n : Int) : ℚ) = (d.coefficient * 10 ^ n : Nat) := by
      rw [zpow_natCast]
      push_cast
      rfl
    rw [hn, hsize, floor_natCast_add_half, Int.toNat_natCast]
  · -- Further places are cut off, rounded by the last of them.
    rename_i hplaces
    obtain ⟨n, hn⟩ : ∃ n : Nat, d.exponent + places = -n :=
      ⟨d.places - places, by rw [Decimal.places] at hplaces ⊢; omega⟩
    have hfurther : d.places - places = n := by
      rw [Decimal.places] at hplaces ⊢
      omega
    have hsize : (d.coefficient * 10 ^ (-n : Int) : ℚ) = d.coefficient / (10 ^ n : Nat) := by
      rw [zpow_neg, zpow_natCast, div_eq_mul_inv]
      push_cast
      rfl
    dsimp only
    rw [hn, hsize, hfurther, neg_add_cancel, Int.toNat_zero, pow_zero, Nat.mul_one]
    exact roundQuotient_up _ (Nat.pow_pos (by decide))

end Decimal

/-! ## §4 Shortest decimals -/

namespace RoundingInterval

variable {i : RoundingInterval} {tie : Tie}

/-- The value is below the power of ten that its magnitude tells. -/
theorem value_lt (hden : 0 < i.denominator) :
    (i.value / i.denominator : ℚ) < 10 ^ i.magnitude := by
  have hpos : (0 : ℚ) < i.denominator := Nat.cast_pos.mpr hden
  unfold magnitude
  dsimp only
  split
  · -- Below one, the digits of the reciprocal count the zeros after the point.
    rename_i hwhole
    have hvalue : i.value < i.denominator :=
      (Nat.div_eq_zero_iff_lt hden).mp (beq_iff_eq.mp hwhole)
    generalize hlength : (digitsOf (i.denominator / i.value)).length = length
    match length with
    | 0 =>
      have hnonempty : digitsOf (i.denominator / i.value) ≠ [] := Nat.toDigits_ne_nil
      exact absurd (List.eq_nil_of_length_eq_zero hlength) hnonempty
    | 1 =>
      have hone : (i.value : ℚ) / i.denominator < 1 :=
        (div_lt_one hpos).mpr (Nat.cast_lt.mpr hvalue)
      exact hone.trans (by norm_num)
    | k + 2 =>
      -- The reciprocal is at least as large as its first digit says.
      have hlarge : 10 ^ (k + 1) ≤ i.denominator / i.value := by
        by_contra hsmall
        have hle := (length_digitsOf_le_iff k.succ_pos).mpr (Nat.lt_of_not_le hsmall)
        omega
      have hmul : i.value * 10 ^ k * 10 ≤ i.denominator := by
        rw [Nat.mul_assoc, ← Nat.pow_succ, Nat.mul_comm]
        exact Nat.mul_le_of_le_div _ _ _ hlarge
      have hlt : i.value * 10 ^ k < i.denominator := by omega
      have hexponent : (2 - ((k + 2 : Nat) : Int)) = -(k : Int) := by omega
      rw [hexponent, zpow_neg, zpow_natCast, div_lt_iff₀ hpos, inv_mul_eq_div,
        lt_div_iff₀ (by positivity)]
      exact_mod_cast hlt
  · -- From one on, the digits of the whole part count themselves.
    have hwhole : i.value / i.denominator < 10 ^ (digitsOf (i.value / i.denominator)).length :=
      (length_digitsOf_le_iff (List.length_pos_iff.mpr Nat.toDigits_ne_nil)).mp (Nat.le_refl _)
    rw [zpow_natCast, div_lt_iff₀ hpos]
    exact_mod_cast (Nat.div_lt_iff_lt_mul hden).mp hwhole

/-- Counted in units of a grid, the value is below the power of ten that is left. -/
theorem div_lt (hden : 0 < i.denominator) {grid : Int} {digits : Nat}
    (hvalue : (i.value / i.denominator : ℚ) < 10 ^ (grid + digits)) :
    i.value * 10 ^ (-grid).toNat / (i.denominator * 10 ^ grid.toNat) < 10 ^ digits := by
  have hpos : (0 : ℚ) < i.denominator := Nat.cast_pos.mpr hden
  rw [Nat.div_lt_iff_lt_mul (Nat.mul_pos hden (Nat.pow_pos (by decide)))]
  rw [zpow_add₀ (by norm_num), ten_zpow_eq, zpow_natCast, div_lt_iff₀ hpos, div_mul_eq_mul_div,
    div_mul_eq_mul_div, lt_div_iff₀ (by positivity)] at hvalue
  have hnat : i.value * 10 ^ (-grid).toNat < 10 ^ grid.toNat * 10 ^ digits * i.denominator := by
    exact_mod_cast hvalue
  calc i.value * 10 ^ (-grid).toNat < 10 ^ grid.toNat * 10 ^ digits * i.denominator := hnat
    _ = 10 ^ digits * (i.denominator * 10 ^ grid.toNat) := by ring

/-- What is found on a grid is not above that power of ten. -/
theorem onGrid_le (hden : 0 < i.denominator) {grid : Int} {digits k : Nat}
    (hvalue : (i.value / i.denominator : ℚ) < 10 ^ (grid + digits))
    (hgrid : i.onGrid tie grid = some k) : k ≤ 10 ^ digits := by
  -- The quotient is below the power of ten, and rounding adds one at most.
  have hbelow := div_lt hden hvalue
  unfold onGrid at hgrid
  dsimp only at hgrid
  split at hgrid
  · obtain rfl := Option.some.inj hgrid
    exact (roundQuotient_le ..).trans hbelow
  · obtain rfl := Option.some.inj hgrid
    exact hbelow.le
  · obtain rfl := Option.some.inj hgrid
    exact hbelow
  · cases hgrid

/-- Every attempt that fails adds a digit to what may be found. -/
theorem search_le (hden : 0 < i.denominator) {attempts digits : Nat} {grid : Int}
    (hvalue : (i.value / i.denominator : ℚ) < 10 ^ (grid + digits)) :
    (i.search tie attempts grid).1 ≤ 10 ^ (digits + attempts) := by
  -- With no attempts left, the quotient itself is taken.
  induction attempts generalizing digits grid with
  | zero => exact (div_lt hden hvalue).le
  | succ n ih =>
    rw [search]
    split
    · rename_i k hgrid
      exact (onGrid_le hden hvalue hgrid).trans (Nat.pow_le_pow_right (by decide) (by omega))
    · -- The next grid is ten times as fine, so the bound is the same.
      have hfiner : grid - 1 + ((digits + 1 : Nat) : Int) = grid + digits := by omega
      rw [← hfiner] at hvalue
      have hrest := ih hvalue
      rwa [Nat.add_right_comm] at hrest

end RoundingInterval

/-- The coefficient of a shortest decimal is bounded: each attempt of the search adds one digit. -/
theorem Binary.coefficient_shortest_le (tie : Tie) (v : Binary) :
    (v.shortest tie).coefficient ≤ 10 ^ 20 := by
  rw [shortest]
  split
  · exact Nat.zero_le _
  · have hden : 0 < (RoundingInterval.ofBinary v).denominator := Nat.pow_pos (by decide)
    have hvalue := RoundingInterval.value_lt hden
    rw [← Int.add_zero (RoundingInterval.magnitude _), ← Nat.cast_zero] at hvalue
    have hsearch := @RoundingInterval.search_le _ tie hden 20 _ _ hvalue
    rwa [Nat.zero_add] at hsearch

end BandedReport
