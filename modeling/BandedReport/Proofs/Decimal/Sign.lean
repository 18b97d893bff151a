import Mathlib
import BandedReport.Proofs.Decimal.Numerals

/-!
# The sign of a double

A double is packed from a sign, an exponent and a fraction. Unpacking gives these parts back, and
negation and absolute value change the sign alone. What `Binary.ofFloat` reads off the bits is what
the logical model of doubles unpacks, so a negative double is printed as its absolute value with a
minus sign in front.
-/

namespace BandedReport

open Float.Model (Format UnpackedFloat)
open Float.Model.UnpackedFloat (Sign packComponents unpackSign unpackExponent unpackMantissa)

/-! ## §1 Parts of a packed double -/

/-- What a sign, an exponent and a fraction stand for. -/
def unpackParts (s : Sign) (e : BitVec 11) (m : BitVec 52) : UnpackedFloat :=
  if e = -1#_ then (if m = 0#_ then .infinity s else .notANumber)
  else if e = 0#_ then
    if h : m = 0#_ then .zero s
    else .finite s m.toNat (-1074) (by simpa [BitVec.toNat_pos, BitVec.pos_iff_ne_zero])
  else .finite s (2 ^ 52 + m.toNat) ((e.toNat : Int) - 1075) (by omega)

private theorem toNat_implicit (m : BitVec 52) : (1#1 ++ m).toNat = 2 ^ 52 + m.toNat := by
  rw [BitVec.toNat_append, ← Nat.shiftLeft_add_eq_or_of_lt m.isLt]
  simp [Nat.shiftLeft_eq]

/-- Unpacking gives back the parts that were packed. -/
theorem unpack_packComponents (s : Sign) (e : BitVec 11) (m : BitVec 52) :
    UnpackedFloat.unpack .binary64 (packComponents .binary64 s e m) = unpackParts s e m := by
  -- What is packed is cut apart again; then both sides split in the same way.
  simp only [UnpackedFloat.unpack, UnpackedFloat.unpackMantissa_packComponents,
    UnpackedFloat.unpackExponent_packComponents, UnpackedFloat.unpackSign_packComponents,
    Sign.ofBitVec_toBitVec, toNat_implicit]
  rw [unpackParts]
  split
  · rfl
  · split
    · split
      · rfl
      · rename_i h0 _
        subst h0
        rfl
    · rfl

/-- Packing what some bits stand for keeps what they stand for. The bits themselves are kept only
where they stand for a number, since one pattern is packed for all that do not. -/
theorem unpack_pack_unpack (b : BitVec 64) :
    UnpackedFloat.unpack .binary64
        (UnpackedFloat.pack .binary64 (UnpackedFloat.unpack .binary64 b)) =
      UnpackedFloat.unpack .binary64 b := by
  rw [UnpackedFloat.pack_unpack]
  split
  · rename_i hnan
    have hparts : @unpackExponent .binary64 b = -1#_ ∧ @unpackMantissa .binary64 b ≠ 0#_ := by
      simpa only [UnpackedFloat.isNaNBits, decide_eq_true_eq] using hnan
    rw [UnpackedFloat.unpack_packedNaN, UnpackedFloat.unpack]
    simp only [hparts.1, if_pos, hparts.2, if_neg, not_false_eq_true]
  · rfl

theorem unpack_pack_unpackParts (s : Sign) (e : BitVec 11) (m : BitVec 52) :
    UnpackedFloat.unpack .binary64 (UnpackedFloat.pack .binary64 (unpackParts s e m)) =
      unpackParts s e m := by
  rw [← unpack_packComponents, unpack_pack_unpack]

/-! ## §2 Negation and absolute value -/

/-- A double has parts, from which it is packed and which it is unpacked to. -/
theorem exists_parts (x : Float.Model) : ∃ s e m,
    x.toBits.toBitVec = packComponents .binary64 s e m ∧ x.unpack = unpackParts s e m := by
  have hbits := @UnpackedFloat.packComponents_unpackSign_unpackExponent_unpackMantissa .binary64
    x.toBits.toBitVec
  refine ⟨_, _, _, hbits.symm, ?_⟩
  rw [← unpack_packComponents, hbits]
  rfl

theorem abs_unpackParts (s : Sign) (e : BitVec 11) (m : BitVec 52) :
    (unpackParts s e m).abs = unpackParts .positive e m := by
  unfold unpackParts
  split <;> split <;> try split
  all_goals rfl

theorem neg_unpackParts (s : Sign) (e : BitVec 11) (m : BitVec 52) :
    (unpackParts s e m).neg = unpackParts (-s) e m := by
  unfold unpackParts
  split <;> split <;> try split
  all_goals rfl

theorem unpack_abs (x : Float) : x.abs.toModel.unpack = x.toModel.unpack.abs := by
  obtain ⟨s, e, m, -, hparts⟩ := exists_parts x.toModel
  rw [hparts, abs_unpackParts, ← unpack_pack_unpackParts, ← abs_unpackParts s, ← hparts]
  rfl

theorem unpack_neg (x : Float) : (-x).toModel.unpack = x.toModel.unpack.neg := by
  obtain ⟨s, e, m, -, hparts⟩ := exists_parts x.toModel
  rw [hparts, neg_unpackParts, ← unpack_pack_unpackParts, ← neg_unpackParts, ← hparts]
  rfl

/-- A double is known by what it is unpacked to. -/
theorem float_eq_of_unpack {x y : Float} (h : x.toModel.unpack = y.toModel.unpack) : x = y := by
  have hbits : x.toBits.toBitVec = y.toBits.toBitVec :=
    (UnpackedFloat.unpack_inj_of_valid x.toModel.valid y.toModel.valid).mp h
  exact Float.toBits_inj.mp (UInt64.toBitVec_inj.mp hbits)

/-! ## §3 What the bits stand for -/

/-- Is the sign the negative one? -/
def signBit : Sign → Bool
  | .negative => true
  | .positive => false

/-- The value of an unpacked double. -/
def FloatValue.ofUnpacked : UnpackedFloat → FloatValue
  | .notANumber => .nan
  | .infinity s => .infinite (signBit s)
  | .zero s => .finite ⟨signBit s, 0, -1074⟩
  | .finite s m e _ => .finite ⟨signBit s, m, e⟩

theorem toNat_packComponents (s : Sign) (e : BitVec 11) (m : BitVec 52) :
    (packComponents .binary64 s e m).toNat =
      (signBit s).toNat * 2 ^ 63 + e.toNat * 2 ^ 52 + m.toNat := by
  have hsign : s.toBitVec.toNat = (signBit s).toNat := by cases s <;> rfl
  -- To put bits behind others is to shift these and to add.
  have hhigh : (s.toBitVec ++ e).toNat = (signBit s).toNat * 2 ^ 11 + e.toNat := by
    rw [BitVec.toNat_append, ← Nat.shiftLeft_add_eq_or_of_lt e.isLt, Nat.shiftLeft_eq, hsign]
  show (s.toBitVec ++ e ++ m).toNat = _
  rw [BitVec.toNat_append, ← Nat.shiftLeft_add_eq_or_of_lt m.isLt, Nat.shiftLeft_eq, hhigh]
  omega

/-- Decoding the bits of a double gives what it is unpacked to. -/
theorem Binary.ofFloat_eq (x : Float) :
    Binary.ofFloat x = .ofUnpacked x.toModel.unpack := by
  -- The bits of a double are a sign, an exponent and a fraction.
  obtain ⟨s, e, m, hbits, hparts⟩ := exists_parts x.toModel
  have hnat : x.toBits.toNat = (signBit s).toNat * 2 ^ 63 + e.toNat * 2 ^ 52 + m.toNat := by
    rw [← toNat_packComponents, ← hbits]
    rfl
  have he : e.toNat < 2 ^ 11 := e.isLt
  have hm : m.toNat < 2 ^ 52 := m.isLt
  have hs : (signBit s).toNat ≤ 1 := Bool.toNat_le _
  -- Division and remainder cut the three parts out of the number again.
  have hsign : x.toBits.toNat / Nat.pow 2 63 = (signBit s).toNat := by
    show x.toBits.toNat / 2 ^ 63 = _
    omega
  have hexponent : x.toBits.toNat / Nat.pow 2 52 % Nat.pow 2 11 = e.toNat := by
    show x.toBits.toNat / 2 ^ 52 % 2 ^ 11 = _
    omega
  have hfraction : x.toBits.toNat % Nat.pow 2 52 = m.toNat := by
    show x.toBits.toNat % 2 ^ 52 = _
    omega
  have hnegative : ((signBit s).toNat == 1) = signBit s := by cases s <;> rfl
  -- Both sides tell the special patterns apart, one by bits and one by numbers.
  have hmax : e = -1#_ ↔ e.toNat = 2047 := by
    rw [← BitVec.toNat_inj]
    exact Iff.rfl
  have hzero : e = 0#_ ↔ e.toNat = 0 := by
    rw [← BitVec.toNat_inj]
    exact Iff.rfl
  have hmzero : m = 0#_ ↔ m.toNat = 0 := by
    rw [← BitVec.toNat_inj]
    exact Iff.rfl
  -- With that, the two case distinctions are the same.
  rw [hparts, Binary.ofFloat, unpackParts]
  simp only [hsign, hexponent, hfraction, hnegative, hmax, hzero, hmzero, beq_iff_eq]
  split
  · split <;> rfl
  · split
    · split
      · rename_i h
        rw [h]
        rfl
      · rfl
    · rfl

/-! ## §4 Finite doubles -/

theorem unpack_zero : (0.0 : Float).toModel.unpack = .zero .positive := by
  have hbits : (0.0 : Float).toModel.toBits = 0 := by decide +kernel
  rw [Float.Model.unpack, hbits]
  exact unpack_packComponents .positive 0#_ 0#_

theorem unpack_negZero : (-0.0 : Float).toModel.unpack = .zero .negative := by
  rw [unpack_neg, unpack_zero]
  rfl

theorem lt_zero_iff {x : Float} :
    x < 0.0 ↔ x.toModel.unpack = .infinity .negative ∨
      ∃ m e h, x.toModel.unpack = .finite .negative m e h := by
  -- Being less than zero is decided on the unpacked numbers.
  have hlt : x < 0.0 ↔ x.toModel.unpack.lt (.zero .positive) = true := by
    rw [← unpack_zero]
    show Float.lt x 0.0 = true ↔ _
    rw [Float.lt, decide_eq_true_iff]
    exact Iff.rfl
  rw [hlt, UnpackedFloat.lt]
  cases x.toModel.unpack with
  | notANumber => simp [UnpackedFloat.compare]
  | infinity s => cases s <;> simp [UnpackedFloat.compare]
  | zero s => simp [UnpackedFloat.compare]
  | finite s m e h => cases s <;> simp [UnpackedFloat.compare, h]

/-- A finite double below zero has a mantissa. -/
theorem exists_finite_of_lt_zero {x : Float} (hfinite : x.isFinite = true) (h : x < 0.0) :
    ∃ m e hm, x.toModel.unpack = .finite .negative m e hm := by
  have hunpack : x.toModel.unpack.isFinite = true := hfinite
  rcases lt_zero_iff.mp h with hx | hx
  · rw [hx] at hunpack
    cases hunpack
  · exact hx

/-- The absolute value of a finite double has a finite value without a sign. -/
theorem exists_ofFloat_abs {x : Float} (hfinite : x.isFinite = true) :
    ∃ v, Binary.ofFloat x.abs = .finite v ∧ v.negative = false := by
  have hunpack : x.toModel.unpack.isFinite = true := hfinite
  rw [Binary.ofFloat_eq, unpack_abs]
  cases hx : x.toModel.unpack with
  | notANumber | infinity =>
    rw [hx] at hunpack
    cases hunpack
  | zero s => exact ⟨⟨false, 0, -1074⟩, rfl, rfl⟩
  | finite s m e h => exact ⟨⟨false, m, e⟩, rfl, rfl⟩

/-- A number that is neither below zero nor negative zero is its own absolute value. -/
theorem abs_of_not_lt_zero {x : Float} (h : ¬ x < 0.0) (hzero : x ≠ -0.0) : x.abs = x := by
  apply float_eq_of_unpack
  rw [unpack_abs]
  -- Without a sign there is nothing to do, and the negative ones are excluded.
  cases hx : x.toModel.unpack with
  | notANumber => rfl
  | infinity s =>
    cases s with
    | negative => exact absurd (lt_zero_iff.mpr (.inl hx)) h
    | positive => rfl
  | zero s =>
    cases s with
    | negative => exact absurd (float_eq_of_unpack (hx.trans unpack_negZero.symm)) hzero
    | positive => rfl
  | finite s m e hm =>
    cases s with
    | negative => exact absurd (lt_zero_iff.mpr (.inr ⟨m, e, hm, hx⟩)) h
    | positive => rfl

/-- A negative number is the negation of its absolute value. -/
theorem neg_abs_of_lt_zero {x : Float} (h : x < 0.0) : -x.abs = x := by
  apply float_eq_of_unpack
  rw [unpack_neg, unpack_abs]
  rcases lt_zero_iff.mp h with hx | ⟨m, e, hm, hx⟩
  · rw [hx]
    rfl
  · rw [hx]
    rfl

/-! ## §5 Printed doubles -/

/-- A negative number is printed as its absolute value with a minus sign in front. -/
theorem formatNumberChars_of_lt_zero {x : Float} (hfinite : x.isFinite = true) (h : x < 0.0) :
    formatNumberChars x = '-' :: formatNumberChars x.abs := by
  obtain ⟨m, e, hm, hx⟩ := exists_finite_of_lt_zero hfinite h
  have hneg : Binary.ofFloat x = .finite ⟨true, m, e⟩ := by
    rw [Binary.ofFloat_eq, hx]
    rfl
  have habs : Binary.ofFloat x.abs = .finite ⟨false, m, e⟩ := by
    rw [Binary.ofFloat_eq, unpack_abs, hx]
    rfl
  rw [formatNumberChars_of_neg hneg rfl hm, formatNumberChars_of_nonneg habs rfl,
    ← Binary.magnitudeChars_withSign ⟨true, m, e⟩ false]

/-- The absolute value of a finite number is printed as a numeral. -/
theorem numeral_formatNumberChars_abs {x : Float} (hfinite : x.isFinite = true) :
    Numeral (formatNumberChars x.abs) := by
  obtain ⟨v, hv, hsign⟩ := exists_ofFloat_abs hfinite
  rw [formatNumberChars_of_nonneg hv hsign]
  exact v.numeral_magnitudeChars

end BandedReport
