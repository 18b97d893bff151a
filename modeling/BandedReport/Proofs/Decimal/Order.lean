import BandedReport.Coordinate

/-!
# The order of doubles

Doubles are compared by what their bits stand for. Missing numbers are not comparable with
anything, themselves included; finite ones all are, so that of two of them one is not below the
other exactly when the other is at most as large.
-/

namespace BandedReport

open Float.Model (UnpackedFloat)

/-! ## §1 Unpacked doubles -/

/-- Finite numbers are comparable, and in the other order the other way. -/
theorem compare_swap {a b : UnpackedFloat} (ha : a.isFinite = true) (hb : b.isFinite = true) :
    ∃ o, a.compare b = some o ∧ b.compare a = some o.swap := by
  -- Zeros come first, since they are equal whatever their signs are.
  cases a with
  | notANumber | infinity => cases ha
  | zero s =>
    cases b with
    | notANumber | infinity => cases hb
    | zero t => exact ⟨.eq, rfl, rfl⟩
    | finite t n f hn => cases t <;> exact ⟨_, rfl, rfl⟩
  | finite s m e hm =>
    cases b with
    | notANumber | infinity => cases hb
    | zero t => cases s <;> exact ⟨_, rfl, rfl⟩
    | finite t n f hn =>
      -- Of the same sign, exponents are compared before mantissas.
      have hsame : (compare f e).then (compare n m) = ((compare e f).then (compare m n)).swap := by
        rw [Ordering.swap_then, ← Std.OrientedCmp.eq_swap, ← Std.OrientedCmp.eq_swap]
      cases s <;> cases t
      · exact ⟨_, rfl, congrArg (fun o : Ordering => some o.swap) hsame⟩
      · exact ⟨_, rfl, rfl⟩
      · exact ⟨_, rfl, rfl⟩
      · exact ⟨_, rfl, congrArg some hsame⟩

/-- A finite number compares as equal to itself. -/
theorem compare_self {a : UnpackedFloat} (ha : a.isFinite = true) : a.compare a = some .eq := by
  obtain ⟨o, ho, hswap⟩ := compare_swap ha ha
  have hfixed : o = o.swap := Option.some.inj (ho.symm.trans hswap)
  cases o with
  | eq => exact ho
  | lt | gt => cases hfixed

/-! ## §2 Doubles -/

theorem float_lt_iff {x y : Float} :
    x < y ↔ x.toModel.unpack.compare y.toModel.unpack = some .lt := by
  show Float.lt x y = true ↔ _
  rw [Float.lt, decide_eq_true_iff]
  exact beq_iff_eq

theorem float_le_iff {x y : Float} :
    x ≤ y ↔ (x.toModel.unpack.compare y.toModel.unpack).any (·.isLE) = true := by
  show Float.le x y = true ↔ _
  rw [Float.le, decide_eq_true_iff]
  exact Iff.rfl

theorem float_not_lt_iff {x y : Float} (hx : x.isFinite = true) (hy : y.isFinite = true) :
    ¬ x < y ↔ y ≤ x := by
  obtain ⟨o, hxy, hyx⟩ := compare_swap (a := x.toModel.unpack) (b := y.toModel.unpack) hx hy
  rw [float_lt_iff, float_le_iff, hxy, hyx]
  cases o <;> decide

theorem float_le_refl {x : Float} (hx : x.isFinite = true) : x ≤ x := by
  rw [float_le_iff, compare_self hx]
  rfl

theorem float_beq_self {x : Float} (hx : x.isFinite = true) : (x == x) = true := by
  show (x.toModel.unpack.compare x.toModel.unpack == some Ordering.eq) = true
  rw [compare_self hx]
  rfl

end BandedReport
