import VoteTrace.Proofs.Floats.Arithmetic

namespace VoteTrace.Rounding

open Float.Model Float.Model.UnpackedFloat

/-- Finite, and not too large to be packed. -/
def Fits : UnpackedFloat → Prop
  | .zero _ => True
  | .finite _ _ e _ => e ≤ 971
  | _ => False

theorem Fits.isFinite {u : UnpackedFloat} (h : Fits u) : u.isFinite = true := by
  cases u with
  | zero | finite => rfl
  | infinity | notANumber => cases h

section Bits

variable {b : BitVec Format.binary64.numBits}

theorem unpackExponent_ne (h : (UnpackedFloat.unpack .binary64 b).isFinite = true) :
    unpackExponent b ≠ -1#11 := by
  intro hones
  unfold UnpackedFloat.unpack at h
  dsimp only at h
  rw [if_pos hones] at h
  split at h <;> cases h

theorem fits_unpack (hones : unpackExponent b ≠ -1#11) :
    Fits (UnpackedFloat.unpack .binary64 b) := by
  unfold UnpackedFloat.unpack
  dsimp only
  rw [if_neg hones]
  generalize unpackExponent b = exponent at hones ⊢
  have hlast : exponent.toNat ≠ 2 ^ 11 - 1 := fun heq => hones (BitVec.eq_of_toNat_eq heq)
  have hexponent : exponent.toNat < 2 ^ 11 := exponent.isLt
  have hle : (exponent.toNat : Int) - (1023 + 52) ≤ 971 := by omega
  by_cases hzero : exponent = 0#11
  · rw [if_pos hzero]
    by_cases hmantissa : unpackMantissa b = 0#52
    · rw [dif_pos hmantissa]
      trivial
    · rw [dif_neg hmantissa, hzero]
      show (_ : Int) ≤ 971
      decide
  · rw [if_neg hzero]
    exact hle

theorem isFinite_packComponents {s : Sign} {exponent : BitVec 11} {mantissa : BitVec 52}
    (h : exponent ≠ -1#11) : (UnpackedFloat.unpack .binary64
      (packComponents .binary64 s exponent mantissa)).isFinite = true := by
  have hexponent : unpackExponent (packComponents .binary64 s exponent mantissa) = exponent :=
    unpackExponent_packComponents
  exact (fits_unpack (hexponent.trans_ne h)).isFinite

end Bits

theorem isFinite_pack {u : UnpackedFloat} (h : Fits u) :
    (Float.ofModel (Float.Model.pack u)).isFinite = true := by
  show (UnpackedFloat.unpack .binary64 (UnpackedFloat.pack .binary64 u)).isFinite = true
  cases u with
  | infinity | notANumber => cases h
  | zero s => exact isFinite_packComponents (by decide)
  | finite s m e hpos =>
      have hsmall : (e + 1023 + 52).toNat < 2047 := by
        have he : e ≤ 971 := h
        omega
      show (UnpackedFloat.unpack .binary64
        (if 2048 ≤ (e + 1023 + 52).toNat + 1 then packedInfinity .binary64 s
        else if m.log2 + 1 = 53 then
          packComponents .binary64 s (BitVec.ofNat 11 (e + 1023 + 52).toNat) (BitVec.ofNat 52 m)
        else packComponents .binary64 s 0#11 (BitVec.ofNat 52 m))).isFinite = true
      rw [if_neg (by omega)]
      split
      · exact isFinite_packComponents (ofNat_ne_neg_one hsmall)
      · exact isFinite_packComponents (by decide)

theorem isFinite_neg {x : Float} (h : x.isFinite = true) : (-x).isFinite = true := by
  have hfits : Fits x.toModel.unpack := fits_unpack (unpackExponent_ne h)
  show (Float.ofModel (Float.Model.pack x.toModel.unpack.neg)).isFinite = true
  apply isFinite_pack
  generalize x.toModel.unpack = u at hfits ⊢
  cases u with
  | zero | finite => exact hfits
  | infinity | notANumber => cases hfits

/-- A number with more bits than a float has is rounded once. -/
theorem approximates_ofScientific {n : Nat} (hge : 2 ^ 53 ≤ n) (hlt : n < 2 ^ 64) :
    Approximates 1 (Float.ofScientific n false 0) n := by
  have hvalue : ((n * 2 ^ 53 : Nat) : ℚ) * 2 ^ (-53 : ℤ) = n := by
    rw [zpow_neg]
    push_cast
    exact mul_inv_cancel_right₀ (by norm_num) _
  have hmoderate : IsModerate (n : ℚ) := isModerate_natCast (by omega) hlt
  have hround : Float.ofScientific n false 0 = .ofModel (Float.Model.pack
      (roundWithAccuracy .binary64 .positive (n * 2 ^ 53) (-53) .exact)) := by
    have hplace : ¬(0 : Int) < -((2 ^ 11 : Int) + n.log2) := by omega
    rw [Float.ofScientific, dif_neg (by omega)]
    show Float.ofModel (Float.Model.pack (UnpackedFloat.ofScientific .binary64 n 0)) = _
    rw [UnpackedFloat.ofScientific, dif_neg (by omega), if_neg (by decide), if_neg hplace,
      if_pos (Int.le_refl 0)]
    show Float.ofModel (Float.Model.pack
      (roundWithAccuracy .binary64 .positive (n <<< 53 * 1) (-53) .exact)) = _
    rw [Nat.mul_one, Nat.shiftLeft_eq]
  have hrounded := approximates_roundWithAccuracy (m := n * 2 ^ 53) (e := -53) (by omega)
    (represents_exact _) (hvalue.symm ▸ hmoderate)
  rwa [hvalue, ← hround] at hrounded

/-- Every whole number that can be read is a finite float. -/
theorem isFinite_ofScientific {n : Nat} (h : n < 2 ^ 64) :
    (Float.ofScientific n false 0).isFinite = true := by
  rcases Nat.eq_zero_or_pos n with rfl | hpos
  · rfl
  · rcases Nat.lt_or_ge n (2 ^ 53) with hlt | hge
    · obtain ⟨m, e, hnormal⟩ := (approximates_ofNat hpos hlt).exists_isNormal
      exact hnormal.isFinite
    · obtain ⟨m, e, hnormal⟩ := (approximates_ofScientific hge h).exists_isNormal
      exact hnormal.isFinite

end VoteTrace.Rounding
