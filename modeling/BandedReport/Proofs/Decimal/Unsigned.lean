import BandedReport.Proofs.Decimal.Sign

/-!
# Doubles without a sign

A decimal without a minus sign denotes a double without one: zero is positive zero, and what is too
large is positive infinity. Products, quotients and roundings of unpacked doubles have the positive
sign where their operands have it, and packing adds none.
-/

namespace BandedReport

open Float.Model (Format UnpackedFloat)
open Float.Model.UnpackedFloat (Sign packComponents)

/-! ## §1 Unpacked doubles -/

namespace Unpacked

theorem abs_roundWithAccuracy (m : Nat) (e : Int) (accuracy : UnpackedFloat.Accuracy) :
    (UnpackedFloat.roundWithAccuracy .binary64 .positive m e accuracy).abs =
      UnpackedFloat.roundWithAccuracy .binary64 .positive m e accuracy := by
  simp only [UnpackedFloat.roundWithAccuracy]
  split <;> rfl

variable {u v : UnpackedFloat}

theorem abs_mul (hu : u.abs = u) (hv : v.abs = v) :
    (u.mul .binary64 v).abs = u.mul .binary64 v := by
  -- Only the product of two finite numbers is rounded.
  rw [← hu, ← hv]
  cases u <;> cases v <;> first | rfl | exact abs_roundWithAccuracy _ _ _

theorem abs_div (hu : u.abs = u) (hv : v.abs = v) :
    (u.div .binary64 v).abs = u.div .binary64 v := by
  rw [← hu, ← hv]
  cases u <;> cases v <;> first | rfl | exact abs_roundWithAccuracy _ _ _

theorem abs_ofUInt64 (n : UInt64) :
    (UnpackedFloat.ofUInt64 .binary64 n).abs = UnpackedFloat.ofUInt64 .binary64 n := by
  unfold UnpackedFloat.ofUInt64 UnpackedFloat.ofNat UnpackedFloat.ofInt UnpackedFloat.normalize
  split
  · rename_i h
    rw [Int.compare_eq_lt] at h
    exact absurd (Int.natCast_nonneg n.toNat) (Int.not_le.mpr h)
  · rfl
  · exact abs_roundWithAccuracy _ _ _

theorem abs_ofScientific (m : Nat) (e : Int) :
    (UnpackedFloat.ofScientific .binary64 m e).abs = UnpackedFloat.ofScientific .binary64 m e := by
  -- Zero, too large, too small, and then a product or a quotient by a power of ten.
  unfold UnpackedFloat.ofScientific
  split
  · rfl
  · split
    · rfl
    · split
      · rfl
      · split
        · exact abs_mul rfl rfl
        · exact abs_div rfl rfl

/-- Packing adds no sign. -/
theorem abs_unpack_pack (h : u.abs = u) :
    (UnpackedFloat.unpack .binary64 (UnpackedFloat.pack .binary64 u)).abs =
      UnpackedFloat.unpack .binary64 (UnpackedFloat.pack .binary64 u) := by
  -- Whatever is packed, the sign that is written is the positive one.
  have hparts : ∃ e m, UnpackedFloat.pack .binary64 u =
      packComponents .binary64 .positive e m := by
    rw [← h]
    cases u with
    | notANumber | infinity | zero => exact ⟨_, _, rfl⟩
    | finite s m e hm =>
      simp only [UnpackedFloat.abs, UnpackedFloat.pack]
      split
      · exact ⟨_, _, rfl⟩
      · split <;> exact ⟨_, _, rfl⟩
  obtain ⟨e, m, hpack⟩ := hparts
  rw [hpack, unpack_packComponents, abs_unpackParts]

end Unpacked

/-! ## §2 Doubles -/

theorem abs_eq_self_iff {x : Float} :
    x.abs = x ↔ x.toModel.unpack.abs = x.toModel.unpack := by
  rw [← unpack_abs]
  exact ⟨congrArg fun y : Float => y.toModel.unpack, float_eq_of_unpack⟩

theorem float_abs_mul {x y : Float} (hx : x.abs = x) (hy : y.abs = y) :
    (x * y).abs = x * y := by
  rw [abs_eq_self_iff] at hx hy ⊢
  exact Unpacked.abs_unpack_pack (Unpacked.abs_mul hx hy)

theorem float_abs_div {x y : Float} (hx : x.abs = x) (hy : y.abs = y) :
    (x / y).abs = x / y := by
  rw [abs_eq_self_iff] at hx hy ⊢
  exact Unpacked.abs_unpack_pack (Unpacked.abs_div hx hy)

private theorem abs_powerOfTen :
    ∀ e : Fin 23, (Float.exactlyRepresentablePowersOfTen[e]).abs =
      Float.exactlyRepresentablePowersOfTen[e] := by
  decide +kernel

theorem float_abs_ofScientific (m : Nat) (small : Bool) (e : Nat) :
    (Float.ofScientific m small e).abs = Float.ofScientific m small e := by
  unfold Float.ofScientific
  split
  · -- A short coefficient is multiplied with, or divided by, a power of ten from a table.
    rename_i h
    have hm : m.toUInt64.toFloat.abs = m.toUInt64.toFloat :=
      abs_eq_self_iff.mpr (Unpacked.abs_unpack_pack (Unpacked.abs_ofUInt64 _))
    have he := abs_powerOfTen ⟨e, Nat.lt_succ_of_le h.2⟩
    split
    · exact float_abs_div hm he
    · exact float_abs_mul hm he
  · exact abs_eq_self_iff.mpr (Unpacked.abs_unpack_pack (Unpacked.abs_ofScientific m _))

/-- A decimal without a minus sign denotes a double without one. -/
theorem Decimal.abs_toFloat {d : Decimal} (h : d.negative = false) :
    d.toFloat.abs = d.toFloat := by
  simp only [toFloat, h, if_neg Bool.false_ne_true]
  split
  · decide +kernel
  · split
    · decide +kernel
    · split <;> exact float_abs_ofScientific _ _ _

/-- A double without a sign is not below zero, and it is not negative zero. -/
theorem not_lt_zero_of_abs_eq {x : Float} (h : x.abs = x) : ¬ x < 0.0 ∧ x ≠ -0.0 := by
  constructor
  · -- What is below zero is unpacked with the negative sign, which the absolute value lacks.
    intro hlt
    rw [abs_eq_self_iff] at h
    rcases lt_zero_iff.mp hlt with hx | ⟨m, e, hm, hx⟩
    · rw [hx] at h
      cases h
    · rw [hx] at h
      cases h
  · rintro rfl
    revert h
    decide +kernel

end BandedReport
