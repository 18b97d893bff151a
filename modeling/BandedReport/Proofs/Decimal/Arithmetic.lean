import BandedReport.Proofs.Decimal.Nearest

/-!
# What doubles are worth

A finite double is worth a sign and a magnitude. Products and quotients of such doubles, and doubles
made of natural numbers and decimals, are worth the exact result rounded to the nearest double;
where that leaves the range of doubles they are infinite.

* `HasValue` says what a double is worth; `HasValue.eq`: doubles of one worth are equal;
* `IsNearest` says that a double is the nearest one to a signed magnitude;
* `HasValue.mul`, `HasValue.div`, `Decimal.isNearest_toFloat` are the results.
-/

namespace BandedReport

open Float.Model (UnpackedFloat)
open Float.Model.UnpackedFloat (Sign packComponents)

/-! ## §1 Packing -/

private theorem finite_congr {s : Sign} {m m' : ℕ} {e e' : ℤ} {hm : 0 < m} {hm' : 0 < m'}
    (h : m = m') (he : e = e') : UnpackedFloat.finite s m e hm = .finite s m' e' hm' := by
  subst h he
  rfl

/-- The magnitudes of finite doubles are below this one. -/
def doubleRange : ℚ := 2 ^ (1024 : ℤ)

theorem doubleRange_pos : 0 < doubleRange := zpow_pos two_pos _

namespace IsDouble

variable {s t : Sign} {p q : ℚ} {u v : UnpackedFloat}

theorem nonneg (h : IsDouble s q u) : 0 ≤ q := by
  cases h with
  | zero => exact le_refl _
  | finite => exact mul_nonneg (Nat.cast_nonneg _) (two_zpow_pos _).le

theorem representable (h : IsDouble s q u) : Representable q := by
  cases h with
  | zero => exact ⟨0, 0, by decide, by decide, by norm_num⟩
  | finite hpos hm he hnormal => exact ⟨_, _, hm, he, rfl⟩

theorem exponent_eq {m : ℕ} {e : ℤ} (hpos : 0 < m) (hm : m < 2 ^ 53) (he : -1074 ≤ e)
    (hnormal : 2 ^ 52 ≤ m ∨ e = -1074) : lastPlace (m * 2 ^ e) = e := by
  have hlog : m.log2 ≤ 52 := Nat.le_of_lt_succ ((Nat.log2_lt hpos.ne').mpr hm)
  have hroom : 52 ≤ m.log2 ∨ e ≤ -1074 := hnormal.imp (Nat.le_log2 hpos.ne').mpr le_of_eq
  rw [lastPlace_eq (Nat.cast_pos.mpr hpos) (Represents.exact m) hroom]
  omega

/-- A sign and a magnitude have one unpacked double. -/
theorem unique (hu : IsDouble s q u) (hv : IsDouble s q v) : u = v := by
  -- A positive magnitude is not zero, so both are zero or both are finite.
  cases hu with
  | zero =>
    generalize hq : (0 : ℚ) = q at hv
    cases hv with
    | zero => rfl
    | finite hpos =>
      exact absurd hq (mul_pos (Nat.cast_pos.mpr hpos) (two_zpow_pos _)).ne
  | @finite m e hpos hm he hnormal =>
    generalize hq : (m * 2 ^ e : ℚ) = q at hv
    cases hv with
    | zero =>
      exact absurd hq (mul_pos (Nat.cast_pos.mpr hpos) (two_zpow_pos e)).ne'
    | finite hpos' hm' he' hnormal' =>
      -- The exponent is the last place of the magnitude, and then the mantissa is the quotient.
      have hexponent := congrArg lastPlace hq
      rw [exponent_eq hpos hm he hnormal, exponent_eq hpos' hm' he' hnormal'] at hexponent
      subst hexponent
      have hmantissa := mul_right_cancel₀ (two_zpow_pos e).ne' hq
      exact finite_congr (Nat.cast_injective hmantissa) rfl

theorem isFinite (h : IsDouble s q u) : u.isFinite = true := by
  cases h <;> rfl

theorem neg (h : IsDouble s q u) : IsDouble (-s) q u.neg := by
  cases h with
  | zero => exact .zero
  | finite hpos hm he hnormal => exact .finite hpos hm he hnormal

theorem abs (h : IsDouble s q u) : IsDouble .positive q u.abs := by
  cases h with
  | zero => exact .zero
  | finite hpos hm he hnormal => exact .finite hpos hm he hnormal

/-- Finite doubles are told by the exponent. -/
theorem lt_iff_exponent_le {m : ℕ} {e : ℤ} (hm : m < 2 ^ 53)
    (hnormal : 2 ^ 52 ≤ m ∨ e = -1074) : (m * 2 ^ e : ℚ) < doubleRange ↔ e ≤ 971 := by
  constructor
  · intro h
    by_contra hlarge
    -- With a larger exponent the mantissa is full, and even the least full one is out of range.
    have hle : (2 : ℚ) ^ (52 + 972 : ℤ) ≤ m * 2 ^ e := by
      rw [zpow_add₀ two_ne_zero]
      refine mul_le_mul ?_ (zpow_le_zpow_right₀ (by norm_num) (by omega)) (two_zpow_pos _).le
        (Nat.cast_nonneg m)
      exact_mod_cast hnormal.resolve_right (by omega)
    exact absurd h (not_lt.mpr hle)
  · intro h
    -- The mantissa is below the next power of two, and the exponent is at most the greatest.
    calc (m * 2 ^ e : ℚ) < 2 ^ (53 : ℤ) * 2 ^ e :=
          mul_lt_mul_of_pos_right (by exact_mod_cast hm) (two_zpow_pos e)
      _ ≤ 2 ^ (53 : ℤ) * 2 ^ (971 : ℤ) :=
          mul_le_mul_of_nonneg_left (zpow_le_zpow_right₀ (by norm_num) h) (by positivity)
      _ = doubleRange := (zpow_add₀ two_ne_zero ..).symm

/-- Up to the greatest exponent, a mantissa with all its digits is packed with its exponent, and
any other without one. -/
private theorem pack_finite (s : Sign) {m : ℕ} {e : ℤ} (hpos : 0 < m) (he : e ≤ 971) :
    UnpackedFloat.pack .binary64 (.finite s m e hpos) = if m.log2 + 1 = 53 then
        packComponents .binary64 s (BitVec.ofNat 11 (e + 1023 + 52).toNat) (BitVec.ofNat 52 m)
      else packComponents .binary64 s 0#11 (BitVec.ofNat 52 m) := by
  refine if_neg ?_
  show ¬ 2 ^ 11 ≤ (e + 1023 + 52).toNat + 1
  omega

private theorem unpack_pack_subnormal (s : Sign) {m : ℕ} (hpos : 0 < m) (hm : m < 2 ^ 52) :
    (Float.Model.pack (.finite s m (-1074) hpos)).unpack = .finite s m (-1074) hpos := by
  have hlog : m.log2 < 52 := (Nat.log2_lt hpos.ne').mpr hm
  have hnat : (BitVec.ofNat 52 m).toNat = m := by
    rw [BitVec.toNat_ofNat, Nat.mod_eq_of_lt hm]
  have hne : BitVec.ofNat 52 m ≠ 0#52 := by
    rw [ne_eq, ← BitVec.toNat_inj, hnat]
    exact hpos.ne'
  show UnpackedFloat.unpack .binary64 (UnpackedFloat.pack .binary64 _) = _
  rw [pack_finite s hpos (by decide), if_neg (by omega), unpack_packComponents, unpackParts,
    if_neg (by decide), if_pos rfl, dif_neg hne]
  exact finite_congr hnat rfl

private theorem unpack_pack_normal (s : Sign) {m : ℕ} {e : ℤ} (hpos : 0 < m) (hm : 2 ^ 52 ≤ m)
    (hm' : m < 2 ^ 53) (he : -1074 ≤ e) (he' : e ≤ 971) :
    (Float.Model.pack (.finite s m e hpos)).unpack = .finite s m e hpos := by
  have hlog : m.log2 = 52 := (Nat.log2_eq_iff hpos.ne').mpr ⟨hm, hm'⟩
  have hnat : (BitVec.ofNat 11 (e + 1023 + 52).toNat).toNat = (e + 1023 + 52).toNat := by
    rw [BitVec.toNat_ofNat, Nat.mod_eq_of_lt (by omega)]
  -- The exponent field is neither all ones nor zero.
  have hones : BitVec.ofNat 11 (e + 1023 + 52).toNat ≠ -1#_ := by
    have hmax : (-1#11 : BitVec 11).toNat = 2047 := rfl
    rw [ne_eq, ← BitVec.toNat_inj, hnat, hmax]
    omega
  have hzero : BitVec.ofNat 11 (e + 1023 + 52).toNat ≠ 0#11 := by
    rw [ne_eq, ← BitVec.toNat_inj, hnat]
    show ¬ (e + 1023 + 52).toNat = 0
    omega
  show UnpackedFloat.unpack .binary64 (UnpackedFloat.pack .binary64 _) = _
  rw [pack_finite s hpos he', if_pos (by omega), unpack_packComponents, unpackParts,
    if_neg hones, if_neg hzero]
  -- Both fields are read back: the mantissa without its leading bit, and the exponent.
  refine finite_congr ?_ ?_
  · rw [BitVec.toNat_ofNat]
    omega
  · rw [hnat]
    omega

/-- Below the range's end, packing loses nothing. -/
theorem unpack_pack (h : IsDouble s q u) (hq : q < doubleRange) :
    (Float.Model.pack u).unpack = u := by
  cases h with
  | zero =>
    show UnpackedFloat.unpack .binary64 (packComponents .binary64 s 0#_ 0#_) = _
    rw [unpack_packComponents]
    rfl
  | @finite m e hpos hm he hnormal =>
    rcases Nat.lt_or_ge m (2 ^ 52) with hsmall | hlarge
    · obtain rfl : e = -1074 := hnormal.resolve_left (by omega)
      exact unpack_pack_subnormal s hpos hsmall
    · exact unpack_pack_normal s hpos hlarge hm he ((lt_iff_exponent_le hm hnormal).mp hq)

/-- Beyond the range's end, what is packed is infinite. -/
theorem unpack_pack_of_le (h : IsDouble s q u) (hq : doubleRange ≤ q) :
    (Float.Model.pack u).unpack = .infinity s := by
  cases h with
  | zero => exact absurd hq (not_le.mpr doubleRange_pos)
  | @finite m e hpos hm he hnormal =>
    have hlarge : ¬ e ≤ 971 := fun hle => not_lt.mpr hq ((lt_iff_exponent_le hm hnormal).mpr hle)
    -- The exponent is too large for its field, which is written as all ones.
    have hpack : UnpackedFloat.pack .binary64 (.finite s m e hpos) =
      packComponents .binary64 s (-1#11) 0#52 := by
      refine if_pos ?_
      show 2 ^ 11 ≤ (e + 1023 + 52).toNat + 1
      omega
    show UnpackedFloat.unpack .binary64 (UnpackedFloat.pack .binary64 (.finite s m e hpos)) = _
    rw [hpack, unpack_packComponents]
    rfl

/-- What the parts of a double stand for is such a double, if it is finite. -/
theorem ofUnpackParts {s : Sign} {e : BitVec 11} {m : BitVec 52} (he : e ≠ -1#_) :
    ∃ q < doubleRange, IsDouble s q (unpackParts s e m) := by
  have hm : m.toNat < 2 ^ 52 := m.isLt
  have hexponent : e.toNat < 2 ^ 11 := e.isLt
  have hones : (-1#11 : BitVec 11).toNat = 2047 := rfl
  -- Not all ones, the exponent is that of a finite number.
  have hmax : e.toNat ≠ 2047 := fun h => he (BitVec.toNat_inj.mp (h.trans hones.symm))
  rw [unpackParts, if_neg he]
  split
  · -- With no exponent the mantissa has no leading bit; it is zero or subnormal.
    split
    · exact ⟨0, doubleRange_pos, .zero⟩
    · exact ⟨_, (lt_iff_exponent_le (by omega) (.inr rfl)).mpr (by omega),
        .finite _ (by omega) (le_refl _) (.inr rfl)⟩
  · -- With an exponent the mantissa is full.
    rename_i hzero
    have hpos : e.toNat ≠ 0 := fun h => hzero (BitVec.toNat_inj.mp h)
    exact ⟨_, (lt_iff_exponent_le (by omega) (.inl (by omega))).mpr (by omega),
      .finite _ (by omega) (by omega) (.inl (by omega))⟩

end IsDouble

/-! ## §2 Products and quotients of unpacked doubles -/

/-- A product of two mantissas, one of which is full or both of which are on the finest grid. -/
theorem IsDouble.mul {s t : Sign} {p q : ℚ} {u v : UnpackedFloat} (hu : IsDouble s p u)
    (hv : IsDouble t q v) : IsDouble (s * t) (toNearest (p * q)) (u.mul .binary64 v) := by
  cases hu with
  | zero =>
    rw [zero_mul, toNearest_zero]
    cases hv <;> exact .zero
  | @finite m e hpos hm he hnormal =>
    cases hv with
    | zero =>
      rw [mul_zero, toNearest_zero]
      exact .zero
    | @finite n f hpos' hn hf hnormal' =>
      -- The product of a full mantissa is full; two that are not lie at the lowest exponent.
      have hroom : 52 ≤ (m * n).log2 ∨ e + f ≤ -1074 := by
        have hmul : 0 < m * n := Nat.mul_pos hpos hpos'
        rw [Nat.le_log2 hmul.ne']
        rcases hnormal with hfull | he'
        · exact .inl (hfull.trans (Nat.le_mul_of_pos_right m hpos'))
        · rcases hnormal' with hfull | hf'
          · exact .inl (hfull.trans (Nat.le_mul_of_pos_left n hpos))
          · exact .inr (by omega)
      have hround := isDouble_roundWithAccuracy (s * t) (Represents.exact (m * n)) hroom
      -- The exact product is what is rounded.
      have hvalue : ((m * n : ℕ) * 2 ^ (e + f) : ℚ) = m * 2 ^ e * (n * 2 ^ f) := by
        rw [zpow_add₀ two_ne_zero]
        push_cast
        ring
      rwa [hvalue] at hround

/-- The quotient of two mantissas is computed with enough digits. -/
theorem isDouble_divCore (s : Sign) {m n : ℕ} (e f : ℤ) (hm : 0 < m) (hn : 0 < n) :
    let parts := UnpackedFloat.divCore .binary64 m e n f
    IsDouble s (toNearest (m * 2 ^ e / (n * 2 ^ f)))
      (UnpackedFloat.roundWithAccuracy .binary64 s parts.1 parts.2.1 parts.2.2) := by
  have hm' : 2 ^ m.log2 ≤ m := Nat.log2_self_le hm.ne'
  have hn' : n < 2 ^ (n.log2 + 1) := Nat.lt_log2_self
  -- The exponent of the quotient and the shift of the dividend.
  obtain ⟨target, shift, hparts, hshift, htarget⟩ : ∃ (target : ℤ) (shift : ℕ),
      UnpackedFloat.divCore .binary64 m e n f = (m <<< shift / n, target,
        UnpackedFloat.accuracyOfFraction (m <<< shift % n) n) ∧
      shift + target = e - f ∧
      target ≤ max ((m.log2 : ℤ) + 1 + e - (n.log2 + 1 + f) - 53) (-1074) := by
    refine ⟨min (e - f) (max ((m.log2 : ℤ) + 1 + e - (n.log2 + 1 + f) - 53) (-1074)), _, rfl,
      ?_, min_le_right _ _⟩
    show (((e - f - min (e - f) (max ((m.log2 : ℤ) + 1 + e - (n.log2 + 1 + f) - 53)
      (-1074))).toNat : ℕ) : ℤ) + _ = _
    omega
  -- Unless it is at the lowest place, the quotient has as many bits as a mantissa.
  have hroom : 52 ≤ (m <<< shift / n).log2 ∨ target ≤ -1074 := by
    by_cases hmin : target ≤ -1074
    · exact .inr hmin
    · have hquotient : 2 ^ 52 ≤ m <<< shift / n := by
        rw [Nat.le_div_iff_mul_le hn, Nat.shiftLeft_eq]
        calc 2 ^ 52 * n ≤ 2 ^ 52 * 2 ^ (n.log2 + 1) := Nat.mul_le_mul_left _ hn'.le
          _ = 2 ^ (52 + (n.log2 + 1)) := (Nat.pow_add ..).symm
          _ ≤ 2 ^ (m.log2 + shift) := Nat.pow_le_pow_right (by decide) (by omega)
          _ = 2 ^ m.log2 * 2 ^ shift := Nat.pow_add ..
          _ ≤ m * 2 ^ shift := Nat.mul_le_mul_right _ hm'
      exact .inl ((Nat.le_log2 (by omega)).mpr hquotient)
  have hround := isDouble_roundWithAccuracy s (Represents.fraction (m <<< shift) hn) hroom
  -- The shift of the dividend is taken back by the exponent.
  have hvalue : ((m <<< shift : ℕ) / n * 2 ^ target : ℚ) = m * 2 ^ e / (n * 2 ^ f) := by
    have hexponent : e = f + (shift + target) := by omega
    have hne : (n : ℚ) ≠ 0 := Nat.cast_ne_zero.mpr hn.ne'
    rw [Nat.shiftLeft_eq, hexponent, zpow_add₀ two_ne_zero, zpow_add₀ two_ne_zero, zpow_natCast]
    have hf : (2 : ℚ) ^ f ≠ 0 := (two_zpow_pos f).ne'
    push_cast
    field_simp
  rw [hparts]
  rwa [hvalue] at hround

theorem IsDouble.div {s t : Sign} {p q : ℚ} {u v : UnpackedFloat} (hu : IsDouble s p u)
    (hv : IsDouble t q v) (hq : q ≠ 0) :
    IsDouble (s / t) (toNearest (p / q)) (u.div .binary64 v) := by
  cases hv with
  | zero => exact absurd rfl hq
  | finite hpos' =>
    cases hu with
    | zero =>
      rw [zero_div, toNearest_zero]
      exact .zero
    | finite hpos => exact isDouble_divCore _ _ _ hpos hpos'

/-- A mantissa is shifted as far as it has room, and rounded. -/
theorem isDouble_round (s : Sign) {m : ℕ} (hm : 0 < m) (e : ℤ) :
    IsDouble s (toNearest (m * 2 ^ e)) (UnpackedFloat.round .binary64 s m e) := by
  obtain ⟨room, hroom, hround⟩ : ∃ room : ℕ,
      (room : ℤ) = max (e - max ((m.log2 : ℤ) + 1 + e - 53) (-1074)) 0 ∧
      UnpackedFloat.round .binary64 s m e =
        UnpackedFloat.roundWithAccuracy .binary64 s (m <<< room) (e - room) .exact :=
    ⟨(e - max ((m.log2 : ℤ) + 1 + e - 53) (-1074)).toNat, by omega, rfl⟩
  -- The mantissa grows by the room it is given.
  have hlog : m.log2 + room ≤ (m <<< room).log2 := by
    rw [Nat.shiftLeft_eq, Nat.le_log2 (Nat.mul_pos hm (Nat.two_pow_pos room)).ne', Nat.pow_add]
    exact Nat.mul_le_mul_right _ (Nat.log2_self_le hm.ne')
  -- The room is taken back by the exponent.
  have hvalue : ((m <<< room : ℕ) * 2 ^ (e - room) : ℚ) = m * 2 ^ e := by
    rw [Nat.shiftLeft_eq, zpow_sub₀ two_ne_zero, zpow_natCast]
    push_cast
    field_simp
  rw [hround, ← hvalue]
  exact isDouble_roundWithAccuracy s (.exact (m <<< room)) (by omega)

theorem isDouble_ofNat (n : ℕ) :
    IsDouble .positive (toNearest n) (UnpackedFloat.ofNat .binary64 n) := by
  rcases Nat.eq_zero_or_pos n with rfl | hpos
  · rw [Nat.cast_zero, toNearest_zero]
    exact .zero
  have hround : UnpackedFloat.ofNat .binary64 n = UnpackedFloat.round .binary64 .positive n 0 := by
    have hcompare : compare (n : ℤ) 0 = .gt := Int.compare_eq_gt.mpr (by omega)
    rw [UnpackedFloat.ofNat, UnpackedFloat.ofInt, UnpackedFloat.normalize, hcompare]
    rfl
  have hdouble := isDouble_round .positive hpos 0
  rwa [zpow_zero, mul_one, ← hround] at hdouble

theorem isDouble_ofScientific {m : ℕ} {e : ℤ} (hm : 0 < m) (he : -(2048 + m.log2) ≤ e)
    (he' : e ≤ 2048) :
    IsDouble .positive (toNearest (m * 10 ^ e)) (UnpackedFloat.ofScientific .binary64 m e) := by
  -- The exponent is neither so low nor so high that the result is decided without rounding.
  have hlow : ¬ e < -((2 : ℤ) ^ 11 + m.log2) := by omega
  have hhigh : ¬ e > (2 : ℤ) ^ 11 := by omega
  rw [UnpackedFloat.ofScientific, dif_neg hm.ne', if_neg hhigh, if_neg hlow]
  split
  · -- The coefficient gets room for a mantissa and is multiplied by the power of ten.
    rename_i hnonneg
    obtain ⟨k, rfl⟩ := Int.eq_ofNat_of_zero_le hnonneg
    have hfull : 52 ≤ (m <<< 53 * 10 ^ k).log2 := by
      have hten : 0 < 10 ^ k := Nat.pow_pos (by decide)
      rw [Nat.shiftLeft_eq,
        Nat.le_log2 (Nat.mul_pos (Nat.mul_pos hm (Nat.two_pow_pos 53)) hten).ne']
      calc 2 ^ 52 ≤ m * 2 ^ 53 := by omega
        _ ≤ m * 2 ^ 53 * 10 ^ k := Nat.le_mul_of_pos_right _ hten
    have hvalue : ((m <<< 53 * 10 ^ k : ℕ) * 2 ^ (-53 + 0 : ℤ) : ℚ) = m * 10 ^ (k : ℤ) := by
      rw [Nat.shiftLeft_eq, zpow_natCast]
      push_cast
      norm_num
      ring
    rw [← hvalue]
    exact isDouble_roundWithAccuracy .positive (.exact (m <<< 53 * 10 ^ k)) (.inl hfull)
  · -- A negative power of ten divides the coefficient.
    rename_i hneg
    have hvalue : (m * 2 ^ (0 : ℤ) / ((10 ^ (-e).toNat : ℕ) * 2 ^ (0 : ℤ)) : ℚ) = m * 10 ^ e := by
      obtain ⟨k, hk⟩ := Int.eq_ofNat_of_zero_le (show 0 ≤ -e by omega)
      obtain rfl : e = -k := by omega
      rw [zpow_zero, mul_one, mul_one, hk, zpow_neg, zpow_natCast, div_eq_mul_inv]
      push_cast
      rfl
    have hten : 0 < 10 ^ (-e).toNat := Nat.pow_pos (by decide)
    have hquotient := isDouble_divCore .positive 0 0 hm hten
    rwa [hvalue] at hquotient

/-! ## §3 Doubles -/

/-- The double is finite and has this sign and magnitude. -/
def HasValue (x : Float) (s : Sign) (q : ℚ) : Prop := IsDouble s q x.toModel.unpack

/-- The exact magnitude of a decoded double. -/
def Binary.size (v : Binary) : ℚ := v.mantissa * 2 ^ v.exponent

theorem exists_hasValue {x : Float} (h : x.isFinite = true) :
    ∃ s q, q < doubleRange ∧ HasValue x s q := by
  have hunpack : x.toModel.unpack.isFinite = true := h
  obtain ⟨s, e, m, -, hparts⟩ := exists_parts x.toModel
  have he : e ≠ -1#_ := by
    rintro rfl
    rw [hparts, unpackParts, if_pos rfl] at hunpack
    split at hunpack <;> cases hunpack
  obtain ⟨q, hq, hdouble⟩ := IsDouble.ofUnpackParts (s := s) (m := m) he
  refine ⟨s, q, hq, ?_⟩
  rwa [HasValue, hparts]

namespace HasValue

variable {x y : Float} {s t : Sign} {p q : ℚ}

theorem isFinite (h : HasValue x s q) : x.isFinite = true := IsDouble.isFinite h

theorem toNearest_eq (h : HasValue x s q) : toNearest q = q :=
  (IsDouble.representable h).toNearest_eq

theorem lt_doubleRange (h : HasValue x s q) : q < doubleRange := by
  obtain ⟨t, p, hp, hvalue⟩ := exists_hasValue h.isFinite
  rw [HasValue] at h hvalue
  generalize x.toModel.unpack = u at h hvalue
  cases h with
  | zero => exact doubleRange_pos
  | finite =>
    cases hvalue
    exact hp

theorem eq (hx : HasValue x s q) (hy : HasValue y s q) : x = y :=
  float_eq_of_unpack (IsDouble.unique hx hy)

theorem neg (h : HasValue x s q) : HasValue (-x) (-s) q := by
  rw [HasValue, unpack_neg]
  exact IsDouble.neg h

theorem abs (h : HasValue x s q) : HasValue x.abs .positive q := by
  rw [HasValue, unpack_abs]
  exact IsDouble.abs h

/-- What is decoded of a double has its sign and its magnitude, and a mantissa that fits. -/
theorem ofFloat_eq (h : HasValue x s q) :
    ∃ v, Binary.ofFloat x = .finite v ∧ v.negative = signBit s ∧ v.mantissa < 2 ^ 53 ∧
      v.size = q := by
  rw [Binary.ofFloat_eq]
  rw [HasValue] at h
  generalize x.toModel.unpack = u at h
  cases h with
  | zero => exact ⟨_, rfl, rfl, Nat.two_pow_pos 53, by simp [Binary.size]⟩
  | finite _ hm => exact ⟨_, rfl, rfl, hm, rfl⟩

end HasValue

/-- The double nearest to a signed magnitude. It is infinite where the range of doubles is left. -/
def IsNearest (x : Float) (s : Sign) (q : ℚ) : Prop :=
  if toNearest q < doubleRange then HasValue x s (toNearest q)
  else x.toModel.unpack = .infinity s

/-- What is packed of the nearest magnitude is the nearest double. -/
theorem IsDouble.isNearest {x : Float} {s : Sign} {q : ℚ} {u : UnpackedFloat}
    (h : IsDouble s (toNearest q) u) (hx : x.toModel.unpack = (Float.Model.pack u).unpack) :
    IsNearest x s q := by
  unfold IsNearest HasValue
  split
  · rename_i hq
    rwa [hx, h.unpack_pack hq]
  · rename_i hq
    rw [hx, h.unpack_pack_of_le (not_lt.mp hq)]

namespace IsNearest

variable {x y : Float} {s : Sign} {q : ℚ}

theorem hasValue (h : IsNearest x s q) (hq : toNearest q < doubleRange) :
    HasValue x s (toNearest q) := by
  rwa [IsNearest, if_pos hq] at h

theorem isFinite_iff (h : IsNearest x s q) : x.isFinite = true ↔ toNearest q < doubleRange := by
  constructor
  · intro hfinite
    by_contra hq
    have hunpack : x.toModel.unpack.isFinite = true := hfinite
    rw [IsNearest, if_neg hq] at h
    rw [h] at hunpack
    cases hunpack
  · intro hq
    exact (h.hasValue hq).isFinite

theorem hasValue_of_isFinite (h : IsNearest x s q) (hfinite : x.isFinite = true) :
    HasValue x s (toNearest q) :=
  h.hasValue (h.isFinite_iff.mp hfinite)

theorem neg (h : IsNearest x s q) : IsNearest (-x) (-s) q := by
  unfold IsNearest at h ⊢
  split
  · rename_i hq
    rw [if_pos hq] at h
    exact h.neg
  · rename_i hq
    rw [if_neg hq] at h
    rw [unpack_neg, h]
    rfl

/-- There is one nearest double. -/
theorem eq (hx : IsNearest x s q) (hy : IsNearest y s q) : x = y := by
  unfold IsNearest at hx hy
  split at hx
  · rename_i hq
    rw [if_pos hq] at hy
    exact hx.eq hy
  · rename_i hq
    rw [if_neg hq] at hy
    exact float_eq_of_unpack (hx.trans hy.symm)

/-- A magnitude on the grid is kept. -/
theorem hasValue_of_representable (h : IsNearest x s q) (hq : Representable q)
    (hrange : q < doubleRange) : HasValue x s q := by
  have hvalue := h.hasValue (hq.toNearest_eq.symm ▸ hrange)
  rwa [hq.toNearest_eq] at hvalue

end IsNearest

namespace HasValue

variable {x y : Float} {s t : Sign} {p q : ℚ}

theorem mul (hx : HasValue x s p) (hy : HasValue y t q) : IsNearest (x * y) (s * t) (p * q) :=
  IsDouble.isNearest (IsDouble.mul hx hy) rfl

theorem div (hx : HasValue x s p) (hy : HasValue y t q) (hq : q ≠ 0) :
    IsNearest (x / y) (s / t) (p / q) :=
  IsDouble.isNearest (IsDouble.div hx hy hq) rfl

end HasValue

theorem isFinite_of_ofFloat {x : Float} {v : Binary} (h : Binary.ofFloat x = .finite v) :
    x.isFinite = true := by
  show x.toModel.unpack.isFinite = true
  rw [Binary.ofFloat_eq] at h
  cases hx : x.toModel.unpack with
  | notANumber | infinity =>
    rw [hx] at h
    cases h
  | zero | finite => rfl

theorem hasValue_of_ofFloat {x : Float} {v : Binary} {s : Sign}
    (h : Binary.ofFloat x = .finite v) (hs : v.negative = signBit s) : HasValue x s v.size := by
  obtain ⟨t, q, -, hvalue⟩ := exists_hasValue (isFinite_of_ofFloat h)
  obtain ⟨w, hw, hsign, -, rfl⟩ := hvalue.ofFloat_eq
  obtain rfl : w = v := FloatValue.finite.inj (hw.symm.trans h)
  obtain rfl : t = s := by
    rw [hsign] at hs
    cases s <;> cases t <;> first | rfl | cases hs
  exact hvalue

theorem Binary.fraction_eq (v : Binary) :
    0 < v.fraction.2 ∧ (v.fraction.1 / v.fraction.2 : ℚ) = v.size := by
  unfold Binary.fraction size
  split
  · -- The exponent goes to the numerator, or to the denominator if it is negative.
    rename_i h
    obtain ⟨k, hk⟩ := Int.eq_ofNat_of_zero_le h
    refine ⟨Nat.one_pos, ?_⟩
    rw [hk, Int.toNat_natCast, zpow_natCast, Nat.cast_one, div_one]
    exact Nat.cast_mul .. |>.trans (by rw [Nat.pow_eq, Nat.cast_pow, Nat.cast_ofNat])
  · rename_i h
    obtain ⟨k, hk⟩ := Int.eq_ofNat_of_zero_le (show 0 ≤ -v.exponent by omega)
    refine ⟨Nat.two_pow_pos _, ?_⟩
    obtain hexponent : v.exponent = -k := by omega
    rw [hk, hexponent, zpow_neg, zpow_natCast, Int.toNat_natCast, div_eq_mul_inv, Nat.pow_eq,
      Nat.cast_pow, Nat.cast_ofNat]

/-! ## §4 Numbers made doubles -/

theorem representable_natCast {n : ℕ} (hn : n ≤ 2 ^ 53) : Representable n := by
  rcases hn.lt_or_eq with hlt | rfl
  · exact ⟨n, 0, hlt, by decide, by rw [zpow_zero, mul_one]⟩
  · exact ⟨2 ^ 52, 1, by norm_num, by decide, by norm_num⟩

theorem representable_doubleRange : Representable doubleRange :=
  ⟨1, 1024, by norm_num, by norm_num, by rw [doubleRange, Nat.cast_one, one_mul]⟩

private theorem fraction_powerOfTen : ∀ e : Fin 23,
    (match Binary.ofFloat Float.exactlyRepresentablePowersOfTen[e] with
    | .finite v => !v.negative && v.fraction.1 == 10 ^ e.val * v.fraction.2
    | _ => false) = true := by
  decide +kernel

theorem hasValue_powerOfTen (e : Fin 23) :
    HasValue Float.exactlyRepresentablePowersOfTen[e] .positive (10 ^ e.val) := by
  have hsize := fraction_powerOfTen e
  -- A power of ten is a number, and the table has it without a sign and exactly.
  cases hv : Binary.ofFloat Float.exactlyRepresentablePowersOfTen[e] with
  | nan | infinite =>
    rw [hv] at hsize
    cases hsize
  | finite v =>
    rw [hv] at hsize
    have hsign : v.negative = false ∧ v.fraction.1 = 10 ^ e.val * v.fraction.2 := by
      simpa using hsize
    obtain ⟨hsign, hfraction⟩ := hsign
    have ⟨hden, hvalue⟩ := v.fraction_eq
    -- From the fraction back to the value.
    have hpower : v.size = 10 ^ e.val := by
      have hne : (v.fraction.2 : ℚ) ≠ 0 := Nat.cast_ne_zero.mpr hden.ne'
      rw [← hvalue, hfraction, Nat.cast_mul, mul_div_cancel_right₀ _ hne]
      push_cast
      rfl
    exact hpower ▸ hasValue_of_ofFloat hv hsign

theorem hasValue_toFloat_toUInt64 {m : ℕ} (hm : m < 2 ^ 53) :
    HasValue m.toUInt64.toFloat .positive m := by
  have hnat : m.toUInt64.toNat = m := Nat.mod_eq_of_lt (by omega : m < 2 ^ 64)
  have hrange : (m : ℚ) < doubleRange := by
    calc (m : ℚ) < 2 ^ (53 : ℤ) := by exact_mod_cast hm
      _ ≤ doubleRange := zpow_le_zpow_right₀ one_le_two (by decide)
  have hconverted : IsNearest m.toUInt64.toFloat .positive m := by
    refine (isDouble_ofNat m).isNearest ?_
    show (Float.Model.pack (UnpackedFloat.ofNat .binary64 m.toUInt64.toNat)).unpack = _
    rw [hnat]
  exact hconverted.hasValue_of_representable (representable_natCast hm.le) hrange

/-- A decimal is made the double nearest to it, whichever way is taken. -/
theorem isNearest_ofScientific (m : ℕ) (small : Bool) {e : ℕ}
    (he : e ≤ 2048 + if small then m.log2 else 0) :
    IsNearest (Float.ofScientific m small e) .positive
      (m * 10 ^ (if small then -(e : ℤ) else e)) := by
  unfold Float.ofScientific
  split
  · -- A short coefficient and an exact power of ten are multiplied or divided.
    rename_i hshort
    have hm := hasValue_toFloat_toUInt64 hshort.1
    have hpower := hasValue_powerOfTen ⟨e, Nat.lt_succ_of_le hshort.2⟩
    cases small with
    | true =>
      have hsize : (m * 10 ^ (-(e : ℤ)) : ℚ) = m / 10 ^ e := by
        rw [zpow_neg, zpow_natCast, div_eq_mul_inv]
      exact hsize ▸ hm.div hpower (by positivity)
    | false =>
      have hsize : (m * 10 ^ (e : ℤ) : ℚ) = m * 10 ^ e := by rw [zpow_natCast]
      exact hsize ▸ hm.mul hpower
  · -- A long coefficient goes through the exact conversion, unless it is zero.
    rcases Nat.eq_zero_or_pos m with rfl | hpos
    · refine IsDouble.isNearest ?_ rfl
      rw [Nat.cast_zero, zero_mul, toNearest_zero]
      exact .zero
    · have hexponent : (if small then Int.negOfNat e else Int.ofNat e) =
          if small then -(e : ℤ) else e := by
        cases small
        · rfl
        · exact Int.negOfNat_eq
      rw [← hexponent]
      refine IsDouble.isNearest (isDouble_ofScientific hpos ?_ ?_) rfl <;> rw [hexponent] <;>
        cases small <;> simp only [Bool.false_eq_true, if_false, if_true] at he ⊢ <;> omega

theorem isNearest_ofNat (n : ℕ) : IsNearest (Float.ofNat n) .positive n := by
  have hnumber : IsNearest (Float.ofNat n) .positive _ :=
    isNearest_ofScientific n false (Nat.zero_le _)
  rwa [if_neg Bool.false_ne_true, Nat.cast_zero, zpow_zero, mul_one] at hnumber

/-- Up to the size of a mantissa, natural numbers are exact. -/
theorem hasValue_ofNat {n : ℕ} (hn : n ≤ 2 ^ 53) : HasValue (Float.ofNat n) .positive n := by
  refine (isNearest_ofNat n).hasValue_of_representable (representable_natCast hn) ?_
  calc (n : ℚ) ≤ 2 ^ (53 : ℤ) := by exact_mod_cast hn
    _ < doubleRange := zpow_lt_zpow_right₀ one_lt_two (by decide)

theorem hasValue_zero : HasValue 0.0 .positive 0 := by
  rw [HasValue, unpack_zero]
  exact .zero

theorem unpack_infinity : (1.0 / 0.0 : Float).toModel.unpack = .infinity .positive := by
  have hbits : (1.0 / 0.0 : Float).toModel.toBits = 0x7FF0000000000000 := by decide +kernel
  rw [Float.Model.unpack, hbits]
  exact unpack_packComponents .positive (-1#11) 0#52

/-- The digits of the coefficient tell the size of a decimal up to a factor of ten. -/
theorem Decimal.size_bounds {d : Decimal} (hpos : d.coefficient ≠ 0) :
    10 ^ ((digitsOf d.coefficient).length + d.exponent - 1) ≤ d.size ∧
      d.size < 10 ^ ((digitsOf d.coefficient).length + d.exponent) := by
  have hten : (0 : ℚ) < 10 ^ d.exponent := zpow_pos (by norm_num) _
  have hlength : 0 < (digitsOf d.coefficient).length := List.length_pos_iff.mpr Nat.toDigits_ne_nil
  constructor
  · -- The number of digits says which powers of ten the coefficient is between.
    have hlow : 10 ^ ((digitsOf d.coefficient).length - 1) ≤ d.coefficient := by
      by_contra hsmall
      rcases Nat.eq_zero_or_pos ((digitsOf d.coefficient).length - 1) with hone | hmany
      · rw [hone] at hsmall
        omega
      · have hle := (length_digitsOf_le_iff hmany).mpr (Nat.lt_of_not_le hsmall)
        omega
    rw [show ((digitsOf d.coefficient).length + d.exponent - 1 : ℤ) =
      ((digitsOf d.coefficient).length - 1 : ℕ) + d.exponent by omega, zpow_add₀ (by norm_num),
      zpow_natCast, size]
    exact mul_le_mul_of_nonneg_right (by exact_mod_cast hlow) hten.le
  · have hhigh : d.coefficient < 10 ^ (digitsOf d.coefficient).length :=
      (length_digitsOf_le_iff hlength).mp (le_refl _)
    rw [zpow_add₀ (by norm_num), zpow_natCast, size]
    exact mul_lt_mul_of_pos_right (by exact_mod_cast hhigh) hten

private theorem two_zpow_le_ten_zpow : (2 : ℚ) ^ (1200 : ℤ) ≤ 10 ^ (400 : ℤ) := by
  calc (2 : ℚ) ^ (1200 : ℤ) = (2 ^ (3 : ℤ)) ^ (400 : ℤ) := zpow_mul 2 3 400
    _ ≤ 10 ^ (400 : ℤ) := zpow_le_zpow_left₀ (by norm_num) (by norm_num) (by norm_num)

/-- A decimal of a small scale is rounded to zero. -/
private theorem toNearest_size_eq_zero {d : Decimal} (hpos : d.coefficient ≠ 0)
    (h : (digitsOf d.coefficient).length + d.exponent < -400) : toNearest d.size = 0 := by
  have hbounds := d.size_bounds hpos
  refine toNearest_eq_zero ((zpow_pos (by norm_num) _).trans_le hbounds.1) ?_
  calc d.size ≤ 10 ^ ((digitsOf d.coefficient).length + d.exponent) := hbounds.2.le
    _ ≤ 10 ^ (-400 : ℤ) := zpow_le_zpow_right₀ (by norm_num) (by omega)
    _ ≤ 2 ^ (-1200 : ℤ) := by
      rw [zpow_neg, zpow_neg]
      exact inv_anti₀ (two_zpow_pos _) two_zpow_le_ten_zpow
    _ ≤ 2 ^ (-1075 : ℤ) := zpow_le_zpow_right₀ one_le_two (by decide)

/-- A decimal of a large scale is rounded out of the range of doubles. -/
private theorem doubleRange_le_toNearest_size {d : Decimal} (hpos : d.coefficient ≠ 0)
    (h : 400 < (digitsOf d.coefficient).length + d.exponent) :
    doubleRange ≤ toNearest d.size := by
  rw [← representable_doubleRange.toNearest_eq]
  refine toNearest_mono doubleRange_pos.le ?_
  calc doubleRange ≤ 2 ^ (1200 : ℤ) := zpow_le_zpow_right₀ one_le_two (by decide)
    _ ≤ 10 ^ (400 : ℤ) := two_zpow_le_ten_zpow
    _ ≤ 10 ^ ((digitsOf d.coefficient).length + d.exponent - 1) :=
      zpow_le_zpow_right₀ (by norm_num) (by omega)
    _ ≤ d.size := (d.size_bounds hpos).1

private theorem isNearest_zero {q : ℚ} (h : toNearest q = 0) : IsNearest 0.0 .positive q := by
  rw [IsNearest, h, if_pos doubleRange_pos]
  exact hasValue_zero

/-- The magnitude of a decimal, by the four cases of its conversion. -/
private theorem isNearest_magnitude {d : Decimal} {e : ℤ}
    (he : e = (digitsOf d.coefficient).length + d.exponent) :
    IsNearest (if d.coefficient == 0 || e < -400 then 0.0 else if 400 < e then 1.0 / 0.0
      else if 0 ≤ d.exponent then Float.ofScientific d.coefficient false d.exponent.toNat
      else Float.ofScientific d.coefficient true (-d.exponent).toNat) .positive d.size := by
  -- What is zero or too small for any double becomes zero, and what is too large infinite.
  by_cases hzero : d.coefficient = 0
  · rw [if_pos (by simp [hzero])]
    exact isNearest_zero (by rw [Decimal.size, hzero, Nat.cast_zero, zero_mul, toNearest_zero])
  by_cases hsmall : e < -400
  · rw [if_pos (by simp [hsmall])]
    exact isNearest_zero (toNearest_size_eq_zero hzero (he ▸ hsmall))
  rw [if_neg (by simp [hzero, hsmall])]
  by_cases hlarge : 400 < e
  · rw [if_pos hlarge, IsNearest,
      if_neg (not_lt.mpr (doubleRange_le_toNearest_size hzero (he ▸ hlarge)))]
    exact unpack_infinity
  rw [if_neg hlarge, Decimal.size]
  -- In between, the exponent is one that the conversion can take.
  have hlength : (digitsOf d.coefficient).length ≤ d.coefficient.log2 + 1 :=
    (length_digitsOf_le_iff (Nat.succ_pos _)).mpr
      (Nat.lt_log2_self.trans_le (Nat.pow_le_pow_left (by decide) _))
  -- The exponent is written without a sign, and the sign is passed beside it.
  split
  · obtain ⟨k, hk⟩ := Int.eq_ofNat_of_zero_le ‹0 ≤ d.exponent›
    rw [hk]
    exact isNearest_ofScientific _ false (by omega)
  · obtain ⟨k, hk⟩ := Int.eq_ofNat_of_zero_le (show 0 ≤ -d.exponent by omega)
    rw [hk, ← neg_neg d.exponent, hk]
    exact isNearest_ofScientific _ true (by rw [if_pos rfl]; omega)

/-- A decimal is made the double nearest to it. -/
theorem Decimal.isNearest_toFloat {d : Decimal} {s : Sign} (hs : d.negative = signBit s) :
    IsNearest d.toFloat s d.size := by
  cases s with
  | positive =>
    have hs' : d.negative = false := hs
    simp only [toFloat, hs', if_neg Bool.false_ne_true]
    exact isNearest_magnitude rfl
  | negative =>
    have hs' : d.negative = true := hs
    simp only [toFloat, hs', if_pos]
    exact (isNearest_magnitude rfl).neg

end BandedReport
