import Mathlib.Algebra.Order.Field.Basic
import Mathlib.Algebra.Order.Field.Rat
import Mathlib.Tactic.Linarith
import Mathlib.Tactic.Positivity
import Mathlib.Tactic.Ring

namespace VoteTrace.Rounding

open Float.Model Float.Model.UnpackedFloat

/-- The mantissa is what is before the point of the number. The round bit tells a half or more
behind it, and the sticky bit that there is something else besides. -/
structure Represents (em : ExtendedMantissa) (x : ℚ) : Prop where
  mantissa_le : em.mantissa ≤ x
  lt_succ : x < em.mantissa + 1
  roundBit_iff : em.roundBit = true ↔ em.mantissa + 1 / 2 ≤ x
  stickyBit_iff : em.stickyBit = true ↔ x ≠ em.mantissa ∧ x ≠ em.mantissa + 1 / 2

theorem represents_exact (m : Nat) : Represents (.ofMantissaAndAccuracy m .exact) m := by
  constructor <;> simp [ExtendedMantissa.ofMantissaAndAccuracy]

/-- What a division leaves over tells on which side of a half the quotient lies. -/
theorem represents_fraction (m : Nat) {rest d : Nat} (h : rest < d) :
    Represents (.ofMantissaAndAccuracy m (accuracyOfFraction rest d)) (m + rest / d) := by
  have hd : (0 : ℚ) < d := Nat.cast_pos.mpr (Nat.zero_lt_of_lt h)
  have hlt : (rest : ℚ) / d < 1 := (div_lt_one hd).mpr (Nat.cast_lt.mpr h)
  rw [accuracyOfFraction]
  split
  · rename_i hrest
    rw [hrest, Nat.cast_zero, zero_div, add_zero]
    exact represents_exact m
  · rename_i hrest
    have hpos : 0 < (rest : ℚ) / d := div_pos (Nat.cast_pos.mpr (Nat.pos_of_ne_zero hrest)) hd
    cases hside : compare (2 * rest) d with
    | lt =>
        have hhalf : (rest : ℚ) / d < 1 / 2 := by
          have hless : rest * 2 < 1 * d := by grind [Nat.compare_eq_lt]
          rw [div_lt_div_iff₀ hd two_pos]
          exact_mod_cast hless
        constructor <;> simp only [ExtendedMantissa.ofMantissaAndAccuracy] <;> grind
    | eq =>
        have hhalf : (rest : ℚ) / d = 1 / 2 := by
          have hequal : rest * 2 = 1 * d := by grind [Nat.compare_eq_eq]
          rw [div_eq_div_iff hd.ne' two_ne_zero]
          exact_mod_cast hequal
        constructor <;> simp only [ExtendedMantissa.ofMantissaAndAccuracy] <;> grind
    | gt =>
        have hhalf : 1 / 2 < (rest : ℚ) / d := by
          have hmore : 1 * d < rest * 2 := by grind [Nat.compare_eq_gt]
          rw [div_lt_div_iff₀ two_pos hd]
          exact_mod_cast hmore
        constructor <;> simp only [ExtendedMantissa.ofMantissaAndAccuracy] <;> grind

theorem represents_quotient (n : Nat) {d : Nat} (hd : 0 < d) :
    Represents (.ofMantissaAndAccuracy (n / d) (accuracyOfFraction (n % d) d)) (n / d : ℚ) := by
  have hquotient : (n / d : ℚ) = (n / d : Nat) + (n % d : Nat) / d := by
    have hsplit : (n : ℚ) = d * (n / d : Nat) + (n % d : Nat) := by
      exact_mod_cast (Nat.div_add_mod n d).symm
    rw [hsplit, add_div, mul_div_cancel_left₀ _ (Nat.cast_ne_zero.mpr hd.ne')]
  rw [hquotient]
  exact represents_fraction _ (Nat.mod_lt n hd)

theorem Represents.shiftRightOne {em : ExtendedMantissa} {x : ℚ} (h : Represents em x) :
    Represents em.shiftRightOne (x / 2) := by
  obtain ⟨m, roundBit, stickyBit⟩ := em
  obtain ⟨hle, hlt, hround, hsticky⟩ := h
  have hsplit : (m : ℚ) = 2 * (m / 2 : Nat) + (m % 2 : Nat) := by
    exact_mod_cast (Nat.div_add_mod m 2).symm
  have hparity : m % 2 = 0 ∨ m % 2 = 1 := Nat.mod_two_eq_zero_or_one m
  rcases hparity with hparity | hparity <;> rw [hparity] at hsplit <;>
    constructor <;> simp only [ExtendedMantissa.shiftRightOne, hparity] <;> grind

theorem Represents.shiftRight {em : ExtendedMantissa} {x : ℚ} (h : Represents em x) (k : Nat) :
    Represents (em >>> k) (x / 2 ^ k) := by
  induction k with
  | zero =>
      rw [pow_zero, div_one]
      exact h
  | succ k ih =>
      rw [pow_succ, ← div_div]
      exact ih.shiftRightOne

/-- A tie goes to the even mantissa, so it is never off by more than a half. -/
theorem Represents.abs_roundedMantissa_sub_le {em : ExtendedMantissa} {x : ℚ}
    (h : Represents em x) : |(em.roundedMantissa : ℚ) - x| ≤ 1 / 2 := by
  obtain ⟨m, roundBit, stickyBit⟩ := em
  obtain ⟨hle, hlt, hround, hsticky⟩ := h
  have hparity : m % 2 = 0 ∨ m % 2 = 1 := Nat.mod_two_eq_zero_or_one m
  rw [abs_le]
  cases roundBit <;> cases stickyBit <;> rcases hparity with hparity | hparity <;>
    simp [ExtendedMantissa.roundedMantissa, ExtendedMantissa.accuracy,
      Accuracy.roundToNearestEven, hparity] <;>
    grind

/-- The float is positive and uses all the bits of its mantissa. -/
structure IsNormal (x : Float) (m : Nat) (e : Int) : Prop where
  le_mantissa : 2 ^ 52 ≤ m
  mantissa_lt : m < 2 ^ 53
  unpack_eq : ∃ hpos, x.toModel.unpack = .finite .positive m e hpos

theorem log2_eq_of_bounds {m : Nat} (hle : 2 ^ 52 ≤ m) (hlt : m < 2 ^ 53) : m.log2 = 52 :=
  (Nat.log2_eq_iff (by omega)).mpr ⟨hle, hlt⟩

theorem toNat_append_ofNat {m : Nat} (hle : 2 ^ 52 ≤ m) (hlt : m < 2 ^ 53) :
    (1#1 ++ BitVec.ofNat 52 m).toNat = m := by
  rw [BitVec.toNat_append, ← Nat.shiftLeft_add_eq_or_of_lt (BitVec.isLt _), BitVec.toNat_ofNat,
    Nat.shiftLeft_eq, BitVec.toNat_ofNat]
  omega

theorem unpackSign_packComponents (s : Sign) (e : BitVec 11) (m : BitVec 52) :
    unpackSign (packComponents .binary64 s e m) = s.toBitVec := by
  apply BitVec.eq_of_getElem_eq
  intro i hi
  obtain rfl : i = 0 := by omega
  have hsign : ((s.toBitVec ++ e) ++ m).getLsbD 63 = s.toBitVec.getLsbD 0 := by
    rw [BitVec.getLsbD_append, BitVec.getLsbD_append]
    rfl
  unfold unpackSign packComponents
  rw [BitVec.getElem_cast, BitVec.getElem_extract]
  exact hsign

theorem unpack_packComponents {s : Sign} {e : BitVec 11} {m : BitVec 52} (hones : e ≠ -1#11)
    (hzero : e ≠ 0#11) (hpos : 0 < (1#1 ++ m).toNat) :
    UnpackedFloat.unpack .binary64 (packComponents .binary64 s e m) =
      .finite s (1#1 ++ m).toNat (e.toNat - (1023 + 52)) hpos := by
  have hmantissa : unpackMantissa (packComponents .binary64 s e m) = m :=
    unpackMantissa_packComponents
  have hexponent : unpackExponent (packComponents .binary64 s e m) = e :=
    unpackExponent_packComponents
  have hsign := unpackSign_packComponents s e m
  generalize packComponents .binary64 s e m = packed at hmantissa hexponent hsign ⊢
  subst hmantissa hexponent
  unfold UnpackedFloat.unpack
  dsimp only
  rw [if_neg hones, if_neg hzero, hsign]
  cases s <;> rfl

theorem ofNat_ne_neg_one {n : Nat} (h : n < 2047) : BitVec.ofNat 11 n ≠ -1#11 := by
  intro heq
  have hvalue : (BitVec.ofNat 11 n).toNat = 2047 := congrArg BitVec.toNat heq
  rw [BitVec.toNat_ofNat] at hvalue
  omega

theorem isNormal_pack {m : Nat} {e : Int} (hle : 2 ^ 52 ≤ m) (hlt : m < 2 ^ 53)
    (hlow : -1074 ≤ e) (hhigh : e ≤ 971) (hpos : 0 < m) :
    IsNormal (.ofModel (Float.Model.pack (.finite .positive m e hpos))) m e := by
  refine ⟨hle, hlt, hpos, ?_⟩
  show UnpackedFloat.unpack .binary64 (if 2048 ≤ (e + 1023 + 52).toNat + 1 then _
    else if m.log2 + 1 = 53 then
      packComponents .binary64 .positive (BitVec.ofNat 11 (e + 1023 + 52).toNat) (BitVec.ofNat 52 m)
    else _) = _
  have hbiased : (e + 1023 + 52).toNat < 2047 ∧ 0 < (e + 1023 + 52).toNat := by omega
  have hexponent : e = ((e + 1023 + 52).toNat : Int) - (1023 + 52) := by omega
  generalize (e + 1023 + 52).toNat = biased at hbiased hexponent ⊢
  have htoNat : (BitVec.ofNat 11 biased).toNat = biased := Nat.mod_eq_of_lt (by omega)
  rw [if_neg (by omega), if_pos (by rw [log2_eq_of_bounds hle hlt])]
  have hzero : BitVec.ofNat 11 biased ≠ 0#11 := by
    intro heq
    have hvalue := congrArg BitVec.toNat heq
    rw [htoNat, BitVec.toNat_zero] at hvalue
    omega
  have htoNat' := toNat_append_ofNat hle hlt
  rw [unpack_packComponents (ofNat_ne_neg_one hbiased.1) hzero (htoNat'.symm ▸ hpos)]
  congr 1
  rw [htoNat, hexponent]

/-- What a float stands for. -/
def value (x : Float) : ℚ :=
  match x.toModel.unpack with
  | .finite s m e _ => s.apply m * 2 ^ e
  | _ => 0

theorem IsNormal.value_eq {x : Float} {m : Nat} {e : Int} (h : IsNormal x m e) :
    value x = m * 2 ^ e := by
  obtain ⟨hpos, hunpack⟩ := h.unpack_eq
  rw [value, hunpack]
  rfl

theorem IsNormal.isFinite {x : Float} {m : Nat} {e : Int} (h : IsNormal x m e) :
    x.isFinite = true := by
  obtain ⟨hpos, hunpack⟩ := h.unpack_eq
  show x.toModel.unpack.isFinite = true
  rw [hunpack]
  rfl

theorem targetExponent_eq (m : Nat) (e : Int) :
    Format.binary64.targetExponent (totalExponent m e) = max (m.log2 + 1 + e - 53) (-1074) :=
  rfl

theorem shiftToTargetExponent_eq {m k : Nat} {e : Int} (hlog : m.log2 = 52 + k)
    (hlow : -1074 ≤ e + k) (accuracy : Accuracy) :
    shiftToTargetExponent .binary64 m e accuracy =
      (ExtendedMantissa.ofMantissaAndAccuracy m accuracy >>> k, e + k) := by
  have htarget : Format.binary64.targetExponent (totalExponent m e) = e + k := by
    rw [targetExponent_eq, hlog]
    omega
  have hshift : (e + k - e).toNat = k := by omega
  simp only [shiftToTargetExponent, htarget, shiftToExponent, hshift]

theorem mantissa_ofMantissaAndAccuracy (m : Nat) (accuracy : Accuracy) :
    (ExtendedMantissa.ofMantissaAndAccuracy m accuracy).mantissa = m := by
  rcases accuracy with _ | side
  · rfl
  · cases side <;> rfl

section Round

variable {m k : Nat} {e : Int} {accuracy : Accuracy} {sign : Sign}

theorem roundWithAccuracy_of_lt (hlog : m.log2 = 52 + k) (hlow : -1074 ≤ e + k) {r : Nat}
    (hr : (ExtendedMantissa.ofMantissaAndAccuracy m accuracy >>> k).roundedMantissa = r)
    (hle : 2 ^ 52 ≤ r) (hlt : r < 2 ^ 53) :
    roundWithAccuracy .binary64 sign m e accuracy = .finite sign r (e + k) (by omega) := by
  have hlog' : r.log2 = 52 + 0 := log2_eq_of_bounds hle hlt
  have hlow' : -1074 ≤ e + k + (0 : Nat) := by omega
  have hne : (ExtendedMantissa.ofMantissaAndAccuracy r .exact >>> 0).mantissa ≠ 0 := by
    show r ≠ 0
    omega
  unfold roundWithAccuracy
  rw [shiftToTargetExponent_eq hlog hlow]
  dsimp only
  rw [hr, shiftToTargetExponent_eq hlog' hlow', dif_neg hne]
  congr 1
  omega

/-- A carry leaves one bit too many behind, and that is a zero. -/
theorem roundWithAccuracy_of_carry (hlog : m.log2 = 52 + k) (hlow : -1074 ≤ e + k)
    (hr : (ExtendedMantissa.ofMantissaAndAccuracy m accuracy >>> k).roundedMantissa = 2 ^ 53) :
    roundWithAccuracy .binary64 sign m e accuracy =
      .finite sign (2 ^ 52) (e + k + 1) (by decide) := by
  have hlog' : (2 ^ 53 : Nat).log2 = 52 + 1 := Nat.log2_two_pow
  have hlow' : -1074 ≤ e + k + (1 : Nat) := by omega
  have hne : (ExtendedMantissa.ofMantissaAndAccuracy (2 ^ 53) .exact >>> 1).mantissa ≠ 0 := by
    decide
  unfold roundWithAccuracy
  rw [shiftToTargetExponent_eq hlog hlow]
  dsimp only
  rw [hr, shiftToTargetExponent_eq hlog' hlow', dif_neg hne]
  rfl

theorem Represents.scaled_bounds {x : ℚ} (hlog : m.log2 = 52 + k)
    (hx : Represents (.ofMantissaAndAccuracy m accuracy) x) :
    2 ^ 52 ≤ x / 2 ^ k ∧ x / 2 ^ k < 2 ^ 53 := by
  have hne : m ≠ 0 := by
    rintro rfl
    rw [Nat.log2_zero] at hlog
    omega
  obtain ⟨hlowest, hhighest⟩ := (Nat.log2_eq_iff hne).mp hlog
  rw [show 52 + k + 1 = 53 + k by omega] at hhighest
  have hle := hx.mantissa_le
  have hlt := hx.lt_succ
  rw [mantissa_ofMantissaAndAccuracy] at hle hlt
  have hpow : (0 : ℚ) < 2 ^ k := by positivity
  rw [le_div_iff₀ hpow, div_lt_iff₀ hpow, ← pow_add, ← pow_add]
  exact ⟨le_trans (by exact_mod_cast hlowest) hle, hlt.trans_le (by exact_mod_cast hhighest)⟩

/-- Where no bits are missing the mantissa is rounded to 53 of them. -/
theorem exists_roundWithAccuracy {x : ℚ} (hlog : m.log2 = 52 + k)
    (hx : Represents (.ofMantissaAndAccuracy m accuracy) x) (hlow : -1074 ≤ e + k)
    (hhigh : e + k ≤ 970) :
    ∃ r : Nat, 2 ^ 52 ≤ r ∧ |(r : ℚ) - x / 2 ^ k| ≤ 1 / 2 ∧ ∃ m' e',
      IsNormal (.ofModel (Float.Model.pack (roundWithAccuracy .binary64 .positive m e accuracy)))
        m' e' ∧ (m' : ℚ) * 2 ^ e' = r * 2 ^ (e + k) := by
  obtain ⟨hxlow, hxhigh⟩ := hx.scaled_bounds hlog
  have hnear := (hx.shiftRight k).abs_roundedMantissa_sub_le
  generalize hr : (ExtendedMantissa.ofMantissaAndAccuracy m accuracy >>> k).roundedMantissa = r
    at hnear
  obtain ⟨hnearLow, hnearHigh⟩ := abs_le.mp hnear
  have hle : 2 ^ 52 ≤ r := by
    have hlt : (2 ^ 52 : ℚ) < r + 1 := by linarith
    exact Nat.lt_succ_iff.mp (by exact_mod_cast hlt)
  have hge : r ≤ 2 ^ 53 := by
    have hlt : (r : ℚ) < 2 ^ 53 + 1 := by linarith
    exact Nat.lt_succ_iff.mp (by exact_mod_cast hlt)
  refine ⟨r, hle, hnear, ?_⟩
  rcases Nat.lt_or_eq_of_le hge with hlt | rfl
  · refine ⟨r, e + k, ?_, rfl⟩
    rw [roundWithAccuracy_of_lt hlog hlow hr hle hlt]
    exact isNormal_pack hle hlt hlow (by omega) _
  · refine ⟨2 ^ 52, e + k + 1, ?_, ?_⟩
    · rw [roundWithAccuracy_of_carry hlog hlow hr]
      exact isNormal_pack le_rfl (by decide) (by omega) (by omega) _
    · rw [zpow_add_one₀ two_ne_zero]
      push_cast
      ring

end Round

end VoteTrace.Rounding
