import BandedReport.Proofs.Decimal.Arithmetic

/-!
# Finite doubles

The sign has no part in whether a double is finite, and the double of a natural number is finite up
to far beyond the numbers that a machine can count to. Rounding keeps the order of magnitudes, and
so numbers grow into the infinite only upwards: below a natural number whose double is finite all
doubles are.
-/

namespace BandedReport

open Float.Model (UnpackedFloat)

theorem isFinite_neg (x : Float) : (-x).isFinite = x.isFinite := by
  show (-x).toModel.unpack.isFinite = x.toModel.unpack.isFinite
  rw [unpack_neg]
  cases x.toModel.unpack <;> rfl

theorem isFinite_abs (x : Float) : x.abs.isFinite = x.isFinite := by
  show x.abs.toModel.unpack.isFinite = x.toModel.unpack.isFinite
  rw [unpack_abs]
  cases x.toModel.unpack <;> rfl

/-- The double of a natural number that is not enormous is finite. -/
theorem isFinite_ofNat {n : Nat} (hn : n < 2 ^ 128) : (Float.ofNat n).isFinite = true := by
  rw [(isNearest_ofNat n).isFinite_iff]
  have hlimit : Representable (2 ^ 128) := ⟨1, 128, by norm_num, by norm_num, by norm_num⟩
  calc toNearest n ≤ toNearest (2 ^ 128) :=
        toNearest_mono (Nat.cast_nonneg n) (by exact_mod_cast hn.le)
    _ = 2 ^ (128 : ℤ) := hlimit.toNearest_eq
    _ < doubleRange := zpow_lt_zpow_right₀ one_lt_two (by decide)

/-- Below a natural number whose double is finite, doubles are finite. -/
theorem isFinite_ofNat_of_le {n m : Nat} (h : n ≤ m) (hm : (Float.ofNat m).isFinite = true) :
    (Float.ofNat n).isFinite = true := by
  rw [(isNearest_ofNat _).isFinite_iff] at hm ⊢
  exact (toNearest_mono (Nat.cast_nonneg n) (Nat.cast_le.mpr h)).trans_lt hm

end BandedReport
