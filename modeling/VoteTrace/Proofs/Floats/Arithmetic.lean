import Mathlib.Algebra.Order.Field.Power
import Mathlib.Data.List.Induction
import Mathlib.Tactic.FieldSimp
import VoteTrace.Proofs.Floats.Near
import VoteTrace.Proofs.Floats.Rounding

namespace VoteTrace.Rounding

open Float.Model Float.Model.UnpackedFloat

/-- The float stands for the number up to `k` roundings. -/
structure Approximates (k : Nat) (x : Float) (q : ℚ) : Prop where
  exists_isNormal : ∃ m e, IsNormal x m e
  near : Near k (value x) q

/-- The number is not too small or too large for a float, by far. -/
structure IsModerate (q : ℚ) : Prop where
  low : (2 : ℚ) ^ (-200 : ℤ) ≤ q
  high : q ≤ 2 ^ (200 : ℤ)

theorem isModerate_natCast {n : Nat} (hpos : 0 < n) (hlt : n < 2 ^ 64) : IsModerate (n : ℚ) := by
  have hone : (1 : ℚ) ≤ n := Nat.one_le_cast.mpr hpos
  have hlt' : (n : ℚ) < 2 ^ 64 := by exact_mod_cast hlt
  constructor
  · exact le_trans (by norm_num) hone
  · exact hlt'.le.trans (by norm_num)

section Operations

variable {k l : Nat} {x y : Float} {q q' : ℚ}

theorem exponent_of_moderate {a : ℚ} {e : Int} (hlow : 2 ^ 52 ≤ a) (hhigh : a ≤ 2 ^ 54)
    (h : IsModerate (a * 2 ^ e)) : -254 ≤ e ∧ e ≤ 148 := by
  have hpow : (0 : ℚ) ≤ 2 ^ e := by positivity
  have hone : (1 : ℚ) < 2 := one_lt_two
  constructor
  · have hle : (2 : ℚ) ^ (-200 : ℤ) ≤ 2 ^ (54 + e) := by
      rw [zpow_add₀ two_ne_zero]
      exact h.low.trans (mul_le_mul_of_nonneg_right hhigh hpow)
    have hexponents := (zpow_le_zpow_iff_right₀ hone).mp hle
    omega
  · have hle : (2 : ℚ) ^ (52 + e) ≤ 2 ^ (200 : ℤ) := by
      rw [zpow_add₀ two_ne_zero]
      exact (mul_le_mul_of_nonneg_right hlow hpow).trans h.high
    have hexponents := (zpow_le_zpow_iff_right₀ hone).mp hle
    omega

theorem approximates_roundWithAccuracy {m : Nat} {e : Int} {accuracy : Accuracy} {a : ℚ}
    (hm : 2 ^ 52 ≤ m) (ha : Represents (.ofMantissaAndAccuracy m accuracy) a)
    (h : IsModerate (a * 2 ^ e)) :
    Approximates 1
      (.ofModel (Float.Model.pack (roundWithAccuracy .binary64 .positive m e accuracy)))
      (a * 2 ^ e) := by
  obtain ⟨k, hlog⟩ := Nat.exists_eq_add_of_le ((Nat.le_log2 (by omega)).mpr hm)
  obtain ⟨hlow, hhigh⟩ := ha.scaled_bounds hlog
  have hscaled : a * 2 ^ e = a / 2 ^ k * 2 ^ (e + k) := by
    rw [zpow_add₀ two_ne_zero, zpow_natCast]
    field_simp
  rw [hscaled] at h ⊢
  obtain ⟨hexponentLow, hexponentHigh⟩ := exponent_of_moderate hlow (by linarith) h
  obtain ⟨r, hr, hnear, m', e', hnormal, hvalue⟩ :=
    exists_roundWithAccuracy (e := e) hlog ha (by omega) (by omega)
  refine ⟨⟨m', e', hnormal⟩, ?_⟩
  rw [hnormal.value_eq, hvalue]
  exact (near_of_abs_sub_le hr hlow hnear).mul_right (by positivity)

theorem IsNormal.log2_eq {m : Nat} {e : Int} (h : IsNormal x m e) : m.log2 = 52 :=
  log2_eq_of_bounds h.le_mantissa h.mantissa_lt

theorem IsNormal.value_pos {m : Nat} {e : Int} (h : IsNormal x m e) : 0 < value x := by
  have hm : (0 : ℚ) < m := Nat.cast_pos.mpr (lt_of_lt_of_le (by decide) h.le_mantissa)
  rw [h.value_eq]
  positivity

theorem IsNormal.cast_bounds {m : Nat} {e : Int} (h : IsNormal x m e) :
    (2 : ℚ) ^ 52 ≤ m ∧ (m : ℚ) < 2 ^ 53 := by
  constructor
  · exact_mod_cast h.le_mantissa
  · exact_mod_cast h.mantissa_lt

theorem IsNormal.exponent_bounds {m : Nat} {e : Int} (hx : IsNormal x m e)
    (h : IsModerate (value x)) : -254 ≤ e ∧ e ≤ 148 := by
  obtain ⟨hle, hlt⟩ := hx.cast_bounds
  rw [hx.value_eq] at h
  exact exponent_of_moderate hle (by linarith) h

theorem div_eq {m m' : Nat} {e e' : Int} (hx : IsNormal x m e) (hy : IsNormal y m' e')
    (hlow : -1074 ≤ e - e' - 53) :
    x / y = .ofModel (Float.Model.pack (roundWithAccuracy .binary64 .positive ((m <<< 53) / m')
      (e - e' - 53) (accuracyOfFraction ((m <<< 53) % m') m'))) := by
  obtain ⟨hpos, hunpack⟩ := hx.unpack_eq
  obtain ⟨hpos', hunpack'⟩ := hy.unpack_eq
  have htarget : Format.binary64.targetExponent (totalExponent m e - totalExponent m' e') =
      e - e' - 53 := by
    show max (m.log2 + 1 + e - (m'.log2 + 1 + e') - 53) (-1074) = _
    rw [hx.log2_eq, hy.log2_eq]
    omega
  have hcore : divCore .binary64 m e m' e' =
      ((m <<< 53) / m', e - e' - 53, accuracyOfFraction ((m <<< 53) % m') m') := by
    have hmin : min (e - e') (e - e' - 53) = e - e' - 53 := by omega
    have hshift : (e - e' - (e - e' - 53)).toNat = 53 := by omega
    simp only [divCore, htarget, hmin, hshift]
  show Float.ofModel (Float.Model.pack (UnpackedFloat.div .binary64 x.toModel.unpack
    y.toModel.unpack)) = _
  rw [hunpack, hunpack']
  show Float.ofModel (Float.Model.pack (match divCore .binary64 m e m' e' with
    | (quotient, exponent, accuracy) =>
      roundWithAccuracy .binary64 .positive quotient exponent accuracy)) = _
  rw [hcore]

theorem approximates_div_value {m m' : Nat} {e e' : Int} (hx : IsNormal x m e)
    (hy : IsNormal y m' e') (h : IsModerate (value x / value y)) :
    Approximates 1 (x / y) (value x / value y) := by
  have hm := hx.le_mantissa
  have hm' := hy.le_mantissa
  have hlt := hx.mantissa_lt
  have hlt' := hy.mantissa_lt
  have hpos' : 0 < m' := by omega
  have hratio : value x / value y = (m <<< 53 : Nat) / m' * 2 ^ (e - e' - 53) := by
    have hne : (m' : ℚ) ≠ 0 := Nat.cast_ne_zero.mpr hpos'.ne'
    rw [hx.value_eq, hy.value_eq, Nat.shiftLeft_eq, zpow_sub₀ two_ne_zero, zpow_sub₀ two_ne_zero]
    push_cast
    field_simp
  have hquotient : 2 ^ 52 ≤ (m <<< 53) / m' := by
    rw [Nat.le_div_iff_mul_le hpos', Nat.shiftLeft_eq]
    omega
  have hbounds : (2 : ℚ) ^ 52 ≤ (m <<< 53 : Nat) / m' ∧ ((m <<< 53 : Nat) / m' : ℚ) ≤ 2 ^ 54 := by
    rw [le_div_iff₀ (Nat.cast_pos.mpr hpos'), div_le_iff₀ (Nat.cast_pos.mpr hpos'),
      Nat.shiftLeft_eq]
    constructor <;> norm_cast <;> omega
  rw [hratio] at h ⊢
  obtain ⟨hexponent, -⟩ := exponent_of_moderate hbounds.1 hbounds.2 h
  have hrounded := approximates_roundWithAccuracy hquotient (represents_quotient _ hpos') h
  rw [div_eq hx hy (by omega)]
  exact hrounded

theorem round_eq {m : Nat} {e : Int} (hm : 2 ^ 52 ≤ m) :
    UnpackedFloat.round .binary64 .positive m e =
      roundWithAccuracy .binary64 .positive m e .exact := by
  have hlog : 52 ≤ m.log2 := (Nat.le_log2 (by omega)).mpr hm
  have hshift : (e - Format.binary64.targetExponent (totalExponent m e)).toNat = 0 := by
    rw [targetExponent_eq]
    omega
  simp [UnpackedFloat.round, decreaseExponent, hshift]

theorem normalize_eq {m : Nat} {e : Int} (hm : 0 < m) (sign : Sign) :
    UnpackedFloat.normalize .binary64 m e sign = UnpackedFloat.round .binary64 .positive m e := by
  have hcompare : compare (m : Int) 0 = .gt := Int.compare_eq_gt.mpr (by omega)
  simp only [UnpackedFloat.normalize, hcompare, Int.toNat_natCast]

theorem value_shiftLeft {m : Nat} {e low : Int} (h : low ≤ e) :
    (m : ℚ) * 2 ^ e = (m <<< (e - low).toNat : Nat) * 2 ^ low := by
  have hexponent : e = ((e - low).toNat : Int) + low := by omega
  conv_lhs => rw [hexponent, zpow_add₀ two_ne_zero, zpow_natCast]
  rw [Nat.shiftLeft_eq]
  push_cast
  ring

theorem approximates_add_value {m m' : Nat} {e e' : Int} (hx : IsNormal x m e)
    (hy : IsNormal y m' e') (h : IsModerate (value x + value y)) :
    Approximates 1 (x + y) (value x + value y) := by
  obtain ⟨hpos, hunpack⟩ := hx.unpack_eq
  obtain ⟨hpos', hunpack'⟩ := hy.unpack_eq
  let low := min e e'
  let sum := m <<< (e - low).toNat + m' <<< (e' - low).toNat
  have hsum : value x + value y = (sum : ℚ) * 2 ^ low := by
    rw [hx.value_eq, hy.value_eq, value_shiftLeft (min_le_left e e'),
      value_shiftLeft (min_le_right e e'), ← add_mul, ← Nat.cast_add]
  have hle : 2 ^ 52 ≤ sum :=
    hx.le_mantissa.trans ((Nat.le_shiftLeft).trans (Nat.le_add_right _ _))
  have hadd : x + y =
      .ofModel (Float.Model.pack (roundWithAccuracy .binary64 .positive sum low .exact)) := by
    show Float.ofModel (Float.Model.pack (UnpackedFloat.add .binary64 x.toModel.unpack
      y.toModel.unpack)) = _
    rw [hunpack, hunpack', ← round_eq hle, ← normalize_eq (by omega) .positive]
    rfl
  rw [hsum] at h ⊢
  rw [hadd]
  exact approximates_roundWithAccuracy hle (represents_exact sum) h

/-- Nothing is lost where the bits beyond the 53 are zeros. -/
theorem exists_isNormal_of_exact {m w k : Nat} {e : Int} (hlog : m.log2 = 52 + k)
    (hm : m = w * 2 ^ k) (hlow : -1074 ≤ e + k) (hhigh : e + k ≤ 970) :
    ∃ m' e', IsNormal
        (.ofModel (Float.Model.pack (roundWithAccuracy .binary64 .positive m e .exact))) m' e' ∧
      (m' : ℚ) * 2 ^ e' = m * 2 ^ e := by
  obtain ⟨r, -, hnear, m', e', hnormal, hvalue⟩ :=
    exists_roundWithAccuracy hlog (represents_exact m) hlow hhigh
  have hwhole : (m : ℚ) / 2 ^ k = w := by
    rw [hm]
    push_cast
    field_simp
  have hr : r = w := by
    obtain ⟨hnearLow, hnearHigh⟩ := abs_le.mp (hwhole ▸ hnear)
    have hlt : (r : ℚ) < w + 1 := by linarith
    have hgt : (w : ℚ) < r + 1 := by linarith
    have hlt' : r < w + 1 := by exact_mod_cast hlt
    have hgt' : w < r + 1 := by exact_mod_cast hgt
    omega
  refine ⟨m', e', hnormal, ?_⟩
  rw [hvalue, hr, hm, zpow_add₀ two_ne_zero, zpow_natCast]
  push_cast
  ring

theorem log2_mul_two_pow {m : Nat} (hm : 0 < m) (k : Nat) : (m * 2 ^ k).log2 = m.log2 + k := by
  obtain ⟨hlow, hhigh⟩ := (Nat.log2_eq_iff hm.ne').mp rfl
  have hpow : 0 < 2 ^ k := Nat.two_pow_pos k
  apply (Nat.log2_eq_iff (Nat.mul_pos hm hpow).ne').mpr
  rw [Nat.add_right_comm, Nat.pow_add, Nat.pow_add 2 (m.log2 + 1)]
  exact ⟨Nat.mul_le_mul_right _ hlow, Nat.mul_lt_mul_of_pos_right hhigh hpow⟩

theorem exists_isNormal_toFloat {n : Nat} (hpos : 0 < n) (hlt : n < 2 ^ 53) :
    ∃ m e, IsNormal n.toUInt64.toFloat m e ∧ (m : ℚ) * 2 ^ e = n := by
  have hword : n.toUInt64.toNat = n := Nat.mod_eq_of_lt (by omega)
  have hlog : n.log2 < 53 := (Nat.log2_lt hpos.ne').mpr hlt
  have hshift : (0 - Format.binary64.targetExponent (totalExponent n 0)).toNat = 52 - n.log2 := by
    rw [targetExponent_eq]
    omega
  have hround : n.toUInt64.toFloat = .ofModel (Float.Model.pack (roundWithAccuracy .binary64
      .positive (n * 2 ^ (52 - n.log2)) (0 - (52 - n.log2 : Nat)) .exact)) := by
    show Float.ofModel (Float.Model.pack (UnpackedFloat.normalize .binary64
      (n.toUInt64.toNat : Nat) 0 .positive)) = _
    rw [hword, normalize_eq hpos, ← Nat.shiftLeft_eq]
    simp only [UnpackedFloat.round, decreaseExponent, hshift]
  have hlog' : (n * 2 ^ (52 - n.log2)).log2 = 52 + 0 := by
    rw [log2_mul_two_pow hpos]
    omega
  obtain ⟨m, e, hnormal, hvalue⟩ := exists_isNormal_of_exact (e := 0 - (52 - n.log2 : Nat)) hlog'
    (Nat.mul_one _).symm (by omega) (by omega)
  refine ⟨m, e, hround ▸ hnormal, ?_⟩
  rw [hvalue, zpow_sub₀ two_ne_zero, zpow_natCast, zpow_zero]
  push_cast
  field_simp

theorem exists_isNormal_mul_one {m : Nat} {e : Int} (hx : IsNormal x m e) (hlow : -1074 ≤ e)
    (hhigh : e ≤ 970) :
    ∃ m' e', IsNormal (x * Float.ofBits 0x3FF0000000000000) m' e' ∧
      (m' : ℚ) * 2 ^ e' = m * 2 ^ e := by
  obtain ⟨hpos, hunpack⟩ := hx.unpack_eq
  have hone : (Float.ofBits 0x3FF0000000000000).toModel.unpack =
      .finite .positive (2 ^ 52) (-52) (by decide) := by rfl
  have hround : x * Float.ofBits 0x3FF0000000000000 = .ofModel (Float.Model.pack
      (roundWithAccuracy .binary64 .positive (m * 2 ^ 52) (e + -52) .exact)) := by
    show Float.ofModel (Float.Model.pack (UnpackedFloat.mul .binary64 x.toModel.unpack
      (Float.ofBits 0x3FF0000000000000).toModel.unpack)) = _
    rw [hunpack, hone]
    rfl
  have hlog : (m * 2 ^ 52).log2 = 52 + 52 := by rw [log2_mul_two_pow hpos, hx.log2_eq]
  obtain ⟨m', e', hnormal, hvalue⟩ := exists_isNormal_of_exact (e := e + -52) hlog rfl
    (by omega) (by omega)
  refine ⟨m', e', hround ▸ hnormal, ?_⟩
  rw [hvalue, zpow_add₀ two_ne_zero]
  push_cast
  norm_num
  ring

theorem Approximates.value_pos (h : Approximates k x q) : 0 < value x := by
  obtain ⟨m, e, hnormal⟩ := h.exists_isNormal
  exact hnormal.value_pos

theorem Approximates.pos (h : Approximates k x q) : 0 < q := by
  have hproduct : 0 < (1 + unit) ^ k * q := h.value_pos.trans_le h.near.le
  exact pos_of_mul_pos_right hproduct (pow_pos_of_unit k).le

theorem Approximates.mono (h : Approximates k x q) (hkl : k ≤ l) : Approximates l x q :=
  ⟨h.exists_isNormal, h.near.mono hkl h.value_pos.le h.pos.le⟩

theorem approximates_ofNat {n : Nat} (hpos : 0 < n) (hlt : n < 2 ^ 53) :
    Approximates 0 (Float.ofNat n) n := by
  obtain ⟨m, e, hnormal, hvalue⟩ := exists_isNormal_toFloat hpos hlt
  have hmoderate : IsModerate (value n.toUInt64.toFloat) := by
    rw [hnormal.value_eq, hvalue]
    exact isModerate_natCast hpos (by omega)
  obtain ⟨hlow, hhigh⟩ := hnormal.exponent_bounds hmoderate
  obtain ⟨m', e', hnormal', hvalue'⟩ := exists_isNormal_mul_one hnormal (by omega) (by omega)
  have heq : Float.ofNat n = n.toUInt64.toFloat * Float.ofBits 0x3FF0000000000000 := by
    show Float.ofScientific n false 0 = _
    rw [Float.ofScientific, dif_pos ⟨hlt, by decide⟩]
    rfl
  rw [← heq] at hnormal'
  refine ⟨⟨m', e', hnormal'⟩, ?_⟩
  rw [hnormal'.value_eq, hvalue', hvalue]
  exact Near.refl _

/-- Few roundings do not lead out of what is moderate. -/
theorem Near.isModerate {p : ℚ} (h : Near k p q) (hk : k ≤ 2 ^ 52)
    (hlow : 1 / 2 ^ 100 ≤ q) (hhigh : q ≤ 2 ^ 100) (hp : 0 ≤ p) : IsModerate p := by
  have hupper := h.le_two_mul hk (le_trans (by norm_num) hlow)
  have hlower := h.symm.le_two_mul hk hp
  constructor
  · calc (2 : ℚ) ^ (-200 : ℤ) ≤ 1 / 2 ^ 101 := by norm_num
      _ ≤ p := by linarith
  · calc p ≤ 2 * 2 ^ 100 := by linarith
      _ ≤ 2 ^ (200 : ℤ) := by norm_num

theorem Approximates.div (hx : Approximates k x q) (hy : Approximates l y q')
    (hkl : k + l ≤ 2 ^ 52) (hlow : 1 / 2 ^ 100 ≤ q / q') (hhigh : q / q' ≤ 2 ^ 100) :
    Approximates (k + l + 1) (x / y) (q / q') := by
  obtain ⟨m, e, hnormal⟩ := hx.exists_isNormal
  obtain ⟨m', e', hnormal'⟩ := hy.exists_isNormal
  have hpos := hx.value_pos
  have hpos' := hy.value_pos
  have hnear := hx.near.div hy.near hpos.le hx.pos.le hpos' hy.pos
  have hrounded := approximates_div_value hnormal hnormal'
    (hnear.isModerate hkl hlow hhigh (div_pos hpos hpos').le)
  rw [Nat.add_comm]
  exact ⟨hrounded.exists_isNormal, hrounded.near.trans hnear⟩

theorem Approximates.add (hx : Approximates k x q) (hy : Approximates k y q')
    (hk : k ≤ 2 ^ 52) (hlow : 1 / 2 ^ 100 ≤ q + q') (hhigh : q + q' ≤ 2 ^ 100) :
    Approximates (k + 1) (x + y) (q + q') := by
  obtain ⟨m, e, hnormal⟩ := hx.exists_isNormal
  obtain ⟨m', e', hnormal'⟩ := hy.exists_isNormal
  have hnear := hx.near.add hy.near
  have hrounded := approximates_add_value hnormal hnormal'
    (hnear.isModerate hk hlow hhigh (add_pos hx.value_pos hy.value_pos).le)
  rw [Nat.add_comm]
  exact ⟨hrounded.exists_isNormal, hrounded.near.trans hnear⟩

theorem value_lt_of_exponent_lt {m m' : Nat} {e e' : Int} (hx : IsNormal x m e)
    (hy : IsNormal y m' e') (h : e < e') : value x < value y := by
  have hm := hx.cast_bounds.2
  have hm' := hy.cast_bounds.1
  have hpow : (0 : ℚ) < 2 ^ e := by positivity
  calc value x = m * 2 ^ e := hx.value_eq
    _ < 2 ^ 53 * 2 ^ e := mul_lt_mul_of_pos_right hm hpow
    _ = 2 ^ 52 * 2 ^ (e + 1) := by rw [zpow_add_one₀ two_ne_zero]; ring
    _ ≤ 2 ^ 52 * 2 ^ e' :=
        mul_le_mul_of_nonneg_left (zpow_le_zpow_right₀ one_le_two h) (by positivity)
    _ ≤ m' * 2 ^ e' := mul_le_mul_of_nonneg_right hm' (by positivity)
    _ = value y := hy.value_eq.symm

/-- Exponents are compared first, and then mantissas. -/
theorem lt_iff_value_lt {m m' : Nat} {e e' : Int} (hx : IsNormal x m e) (hy : IsNormal y m' e') :
    x < y ↔ value x < value y := by
  obtain ⟨hpos, hunpack⟩ := hx.unpack_eq
  obtain ⟨hpos', hunpack'⟩ := hy.unpack_eq
  have hcompare : x < y ↔ (compare e e').then (compare m m') = .lt := by
    show decide ((x.toModel.unpack.compare y.toModel.unpack == some .lt) = true) = true ↔ _
    rw [hunpack, hunpack', decide_eq_true_iff, beq_iff_eq]
    exact Option.some_inj
  rw [hcompare, Ordering.then_eq_lt, Int.compare_eq_lt, Int.compare_eq_eq, Nat.compare_eq_lt]
  rcases lt_trichotomy e e' with hlt | rfl | hgt
  · simp [hlt, value_lt_of_exponent_lt hx hy hlt]
  · rw [hx.value_eq, hy.value_eq, mul_lt_mul_iff_left₀ (by positivity)]
    simp
  · have hless := value_lt_of_exponent_lt hy hx hgt
    simp [hgt.not_gt, hgt.ne', hless.not_gt]

theorem Approximates.lt_iff (hx : Approximates k x q) (hy : Approximates l y q') :
    x < y ↔ value x < value y := by
  obtain ⟨m, e, hnormal⟩ := hx.exists_isNormal
  obtain ⟨m', e', hnormal'⟩ := hy.exists_isNormal
  exact lt_iff_value_lt hnormal hnormal'

/-- Numbers that are further apart than the roundings stay apart. -/
theorem Approximates.value_lt (hx : Approximates k x q) (hy : Approximates l y q')
    (h : (1 + unit) ^ (k + l) * q < q') : value x < value y := by
  have hscaled : (1 + unit) ^ l * value x < (1 + unit) ^ l * value y :=
    calc (1 + unit) ^ l * value x ≤ (1 + unit) ^ l * ((1 + unit) ^ k * q) :=
          mul_le_mul_of_nonneg_left hx.near.le (pow_pos_of_unit l).le
      _ = (1 + unit) ^ (k + l) * q := by rw [pow_add]; ring
      _ < q' := h
      _ ≤ (1 + unit) ^ l * value y := hy.near.ge
  exact lt_of_mul_lt_mul_left hscaled (pow_pos_of_unit l).le

theorem Approximates.zero_add (hx : Approximates k x q) (h : IsModerate (value x)) :
    Approximates k (Float.ofNat 0 + x) q := by
  obtain ⟨m, e, hnormal⟩ := hx.exists_isNormal
  obtain ⟨hpos, hunpack⟩ := hnormal.unpack_eq
  obtain ⟨hlow, hhigh⟩ := hnormal.exponent_bounds h
  have hzero : (Float.ofNat 0).toModel.unpack = .zero .positive := by rfl
  have hadd : Float.ofNat 0 + x = .ofModel (Float.Model.pack (.finite .positive m e hpos)) := by
    show Float.ofModel (Float.Model.pack (UnpackedFloat.add .binary64
      (Float.ofNat 0).toModel.unpack x.toModel.unpack)) = _
    rw [hunpack, hzero]
    rfl
  have hsame : IsNormal (Float.ofNat 0 + x) m e :=
    hadd ▸ isNormal_pack hnormal.le_mantissa hnormal.mantissa_lt (by omega) (by omega) hpos
  refine ⟨⟨m, e, hsame⟩, ?_⟩
  rw [hsame.value_eq, ← hnormal.value_eq]
  exact hx.near

end Operations

/-- Each float that is added up is rounded once before, and then with every addition but the
first. -/
theorem approximates_sum {ι : Type} {f : ι → Float} {g : ι → ℚ} {l : List ι} (hne : l ≠ [])
    (hlength : l.length ≤ 2 ^ 50)
    (h : ∀ i ∈ l, Approximates 1 (f i) (g i) ∧ 1 / 2 ^ 53 ≤ g i ∧ g i ≤ 1) :
    Approximates l.length ((l.map f).foldl (· + ·) (Float.ofNat 0)) (l.map g).sum ∧
      1 / 2 ^ 53 ≤ (l.map g).sum ∧ (l.map g).sum ≤ l.length := by
  induction l using List.reverseRecOn with
  | nil => exact absurd rfl hne
  | append_singleton l i ih =>
      obtain ⟨hi, hilow, hihigh⟩ := h i (by simp)
      have hmoderate := hi.near.isModerate (by decide) (le_trans (by norm_num) hilow)
        (hihigh.trans (by norm_num)) hi.value_pos.le
      rw [List.length_append, List.length_singleton] at hlength
      rw [List.map_append, List.map_append, List.foldl_append, List.sum_append, List.length_append]
      simp only [List.map_cons, List.map_nil, List.foldl_cons, List.foldl_nil, List.sum_singleton,
        List.length_singleton, Nat.cast_add, Nat.cast_one]
      by_cases hl : l = []
      · subst hl
        simp only [List.map_nil, List.foldl_nil, List.sum_nil, List.length_nil, zero_add,
          Nat.cast_zero]
        exact ⟨hi.zero_add hmoderate, hilow, hihigh⟩
      · obtain ⟨hsum, hlow, hhigh⟩ := ih hl (by omega) fun j hj => h j (by simp [hj])
        have hlength' : (l.length : ℚ) ≤ 2 ^ 50 := by exact_mod_cast (by omega : l.length ≤ 2 ^ 50)
        have hlast := hi.mono (List.length_pos_iff.mpr hl)
        refine ⟨hsum.add hlast (by omega) ?_ ?_, by linarith, by linarith⟩
        · exact le_trans (by norm_num) (add_le_add hlow hilow)
        · exact (add_le_add hhigh hihigh).trans (by linarith)

end VoteTrace.Rounding
