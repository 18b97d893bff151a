import BandedReport.Proofs.Decimal.Order
import BandedReport.Proofs.Decimal.Sign

/-!
# Doubles that are not negative

Heights are doubles that are not below zero; they may be infinite, but they are never missing. Sums
of such doubles are such doubles again, however they are rounded, and whether one of them exceeds a
limit can be told from either side: it is at most the limit exactly when the limit is not below it.
-/

namespace BandedReport

open Float.Model (UnpackedFloat)
open Float.Model.UnpackedFloat (Sign packComponents)

/-! ## §1 Unpacked doubles -/

/-- Zero, or a number with the positive sign. -/
inductive IsExtent : UnpackedFloat → Prop
  | zero (s : Sign) : IsExtent (.zero s)
  | finite {m : Nat} {e : Int} (hm : 0 < m) : IsExtent (.finite .positive m e hm)
  | infinity : IsExtent (.infinity .positive)

namespace IsExtent

variable {u v : UnpackedFloat}

theorem round {m : Nat} {e : Int} : IsExtent (UnpackedFloat.round .binary64 .positive m e) := by
  simp only [UnpackedFloat.round, UnpackedFloat.roundWithAccuracy]
  split
  · exact .zero _
  · exact .finite _

theorem add (hu : IsExtent u) (hv : IsExtent v) : IsExtent (u.add .binary64 v) := by
  -- Zero adds nothing, and infinity takes everything.
  cases hu with
  | zero s =>
    cases hv with
    | zero t =>
      simp only [UnpackedFloat.add]
      split <;> exact .zero _
    | finite hm => exact .finite hm
    | infinity => exact .infinity
  | infinity =>
    cases hv with
    | zero t => exact .infinity
    | finite hm => exact .infinity
    | infinity => exact .infinity
  | @finite m e hm =>
    cases hv with
    | zero t => exact .finite hm
    | infinity => exact .infinity
    | @finite n f hn =>
      -- Two positive mantissas have a sum that is not negative, and it is rounded as such.
      simp only [UnpackedFloat.add, UnpackedFloat.normalize]
      split
      · rename_i hneg
        rw [Int.compare_eq_lt] at hneg
        simp only [Sign.apply] at hneg
        omega
      · exact .zero _
      · exact .round

/-- The bits of the greatest exponent are packed for infinity alone, so packing loses no number. -/
theorem unpack_pack (h : IsExtent u) : IsExtent (Float.Model.pack u).unpack := by
  -- Unpacking positive parts gives infinity, zero or a finite number, but no missing one.
  have hparts : ∀ (e : BitVec 11) (m : BitVec 52), (e = -1#_ → m = 0#_) →
      IsExtent (UnpackedFloat.unpack .binary64 (packComponents .binary64 .positive e m)) := by
    intro e m hmax
    rw [unpack_packComponents, unpackParts]
    split
    · rename_i he
      rw [if_pos (hmax he)]
      exact .infinity
    · split
      · split
        · exact .zero _
        · exact .finite _
      · exact .finite _
  cases h with
  | zero s =>
    show IsExtent (UnpackedFloat.unpack .binary64 (packComponents .binary64 s 0#_ 0#_))
    rw [unpack_packComponents]
    exact .zero s
  | infinity => exact hparts (-1#_) 0#_ fun _ => rfl
  | @finite m e hm =>
    -- The parts of a finite number depend on its exponent: too large, normal or subnormal.
    show IsExtent (UnpackedFloat.unpack .binary64
      (if 2 ^ 11 ≤ (e + 1023 + 52).toNat + 1 then packComponents .binary64 .positive (-1#11) 0#52
        else if m.log2 + 1 = 53 then
          packComponents .binary64 .positive (BitVec.ofNat 11 (e + 1023 + 52).toNat)
            (BitVec.ofNat 52 m)
        else packComponents .binary64 .positive 0#11 (BitVec.ofNat 52 m)))
    split
    · exact hparts _ _ fun _ => rfl
    · split
      · rename_i hbiased _
        -- All ones would need a larger exponent than this case has.
        refine hparts _ _ fun hmax => ?_
        have hnat := congrArg BitVec.toNat hmax
        rw [BitVec.toNat_ofNat, Nat.mod_eq_of_lt (by omega)] at hnat
        have hones : (-1#11 : BitVec 11).toNat = 2047 := rfl
        omega
      · exact hparts _ _ fun hmax => absurd hmax (by decide)

/-- Extents are comparable with each other. -/
theorem compare_swap (hu : IsExtent u) (hv : IsExtent v) :
    ∃ o, u.compare v = some o ∧ v.compare u = some o.swap := by
  cases hu with
  | zero s => cases hv <;> exact ⟨_, rfl, rfl⟩
  | infinity => cases hv <;> exact ⟨_, rfl, rfl⟩
  | finite hm =>
    cases hv with
    | zero t => exact ⟨_, rfl, rfl⟩
    | infinity => exact ⟨_, rfl, rfl⟩
    | finite hn => exact BandedReport.compare_swap rfl rfl

end IsExtent

/-- What is no extent is missing or below zero. -/
theorem isExtent_or (u : UnpackedFloat) : IsExtent u ∨ u = .notANumber ∨
    u.compare (.zero .positive) = some .lt ∧
      (UnpackedFloat.zero .positive).compare u = some .gt := by
  -- A missing number is not compared with anything, and a negative one is less than zero.
  cases u with
  | notANumber => exact .inr (.inl rfl)
  | zero s => exact .inl (.zero s)
  | infinity s =>
    cases s with
    | positive => exact .inl .infinity
    | negative => exact .inr (.inr ⟨rfl, rfl⟩)
  | finite s m e hm =>
    cases s with
    | positive => exact .inl (.finite hm)
    | negative => exact .inr (.inr ⟨rfl, rfl⟩)

/-! ## §2 Doubles -/

private theorem unpack_ofNat_zero : (Float.ofNat 0).toModel.unpack = .zero .positive := by
  have hbits : (Float.ofNat 0).toModel.toBits = 0 := by decide +kernel
  rw [Float.Model.unpack, hbits]
  exact unpack_packComponents .positive 0#_ 0#_

/-- The doubles that are not below zero are the extents. -/
theorem zero_le_iff {x : Float} : Float.ofNat 0 ≤ x ↔ IsExtent x.toModel.unpack := by
  rw [float_le_iff, unpack_ofNat_zero]
  generalize x.toModel.unpack = u
  constructor
  · intro h
    rcases isExtent_or u with hu | rfl | ⟨-, hgreater⟩
    · exact hu
    · cases h
    · rw [hgreater] at h
      cases h
  · intro h
    cases h <;> rfl

theorem zero_le_add {x y : Float} (hx : Float.ofNat 0 ≤ x) (hy : Float.ofNat 0 ≤ y) :
    Float.ofNat 0 ≤ x + y := by
  rw [zero_le_iff] at hx hy ⊢
  exact (hx.add hy).unpack_pack

/-- What is brought to zero from below, and made zero when it is missing, is not negative. -/
theorem zero_le_larger (x : Float) : Float.ofNat 0 ≤ larger x (Float.ofNat 0) := by
  have hzero : Float.ofNat 0 ≤ Float.ofNat 0 := by decide +kernel
  unfold larger
  split
  · -- What is equal to itself is compared with zero; anything else gives way to zero.
    rename_i hself
    split
    · exact hzero
    · -- A number that is equal to itself is not missing.
      rename_i hlt
      have hself : (x.toModel.unpack.compare x.toModel.unpack == some Ordering.eq) = true := hself
      rw [float_lt_iff, unpack_ofNat_zero] at hlt
      rcases isExtent_or x.toModel.unpack with hx | hmissing | ⟨hless, -⟩
      · exact zero_le_iff.mpr hx
      · rw [hmissing] at hself
        cases hself
      · exact absurd hless hlt
  · exact hzero

theorem float_le_of_lt {x y : Float} (h : x < y) : x ≤ y := by
  rw [float_le_iff, float_lt_iff.mp h]
  rfl

/-- A limit above zero is not below an extent exactly when the extent is at most the limit. -/
theorem not_lt_iff_le {limit x : Float} (hlimit : Float.ofNat 0 < limit)
    (hx : Float.ofNat 0 ≤ x) : ¬ limit < x ↔ x ≤ limit := by
  have hextent : IsExtent limit.toModel.unpack := by
    rw [← zero_le_iff]
    exact float_le_of_lt hlimit
  obtain ⟨o, hlt, hle⟩ := hextent.compare_swap (zero_le_iff.mp hx)
  rw [float_lt_iff, float_le_iff, hlt, hle]
  cases o <;> decide

end BandedReport
