import VoteTrace.Proofs.Floats.Arithmetic
import VoteTrace.Proofs.Shares.Agreement
import VoteTrace.Shares.History

namespace VoteTrace

open Rounding

namespace Share

/-- The share is a part of the relays, and they are not too many for a float. -/
structure IsPart (s : Share) : Prop where
  count_pos : 0 < s.count
  count_le : s.count ≤ s.relayCount
  relayCount_lt : s.relayCount < 2 ^ 53

variable {s a b : Share}

/-- Over one number of relays the shares are in the order of the counts. -/
theorem fraction_lt_iff (hpos : 0 < b.relayCount) (hrelays : a.relayCount = b.relayCount) :
    a.fraction < b.fraction ↔ a.count < b.count := by
  have hpos' : (0 : ℚ) < b.relayCount := Nat.cast_pos.mpr hpos
  rw [fraction, fraction, quotient, quotient, hrelays, div_lt_div_iff_of_pos_right hpos',
    Nat.cast_lt]

theorem IsPart.relayCount_pos (h : s.IsPart) : 0 < s.relayCount :=
  h.count_pos.trans_le h.count_le

theorem IsPart.fraction_bounds (h : s.IsPart) : 1 / 2 ^ 53 ≤ s.fraction ∧ s.fraction ≤ 1 := by
  have hpos : (0 : ℚ) < s.relayCount := Nat.cast_pos.mpr h.relayCount_pos
  have hone : (1 : ℚ) ≤ s.count := Nat.one_le_cast.mpr h.count_pos
  have hlt : (s.relayCount : ℚ) < 2 ^ 53 := by exact_mod_cast h.relayCount_lt
  constructor
  · exact div_le_div₀ (Nat.cast_nonneg _) hone hpos hlt.le
  · exact (div_le_one hpos).mpr (Nat.cast_le.mpr h.count_le)

theorem IsPart.approximates (h : s.IsPart) : Approximates 1 s.toFloat s.fraction := by
  have hcount := approximates_ofNat h.count_pos (h.count_le.trans_lt h.relayCount_lt)
  obtain ⟨hlow, hhigh⟩ := h.fraction_bounds
  exact hcount.div (approximates_ofNat h.relayCount_pos h.relayCount_lt) (by decide)
    (le_trans (by norm_num) hlow) (hhigh.trans (by norm_num))

/-- The float of a share is the share, rounded once. -/
structure IsRounded (s : Share) : Prop where
  isFinite : s.toFloat.isFinite = true
  abs_value_sub_le : |value s.toFloat - s.fraction| ≤ s.fraction / 2 ^ 53

theorem IsPart.isRounded (h : s.IsPart) : s.IsRounded := by
  obtain ⟨m, e, hnormal⟩ := h.approximates.exists_isNormal
  have hnear := h.approximates.near.abs_sub_le h.approximates.pos.le
  rw [pow_one, add_sub_cancel_left, unit] at hnear
  exact ⟨hnormal.isFinite, by linarith⟩

/-- Two counts over a number of relays that is not too large are further apart than they are
rounded. -/
theorem IsPart.value_lt (ha : a.IsPart) (hb : b.IsPart) (hrelays : a.relayCount = b.relayCount)
    (hfew : b.relayCount ≤ 2 ^ 51) (h : a.count < b.count) :
    value a.toFloat < value b.toFloat := by
  apply ha.approximates.value_lt hb.approximates
  have hpos : (0 : ℚ) < b.relayCount := Nat.cast_pos.mpr hb.relayCount_pos
  have hcount : (a.count : ℚ) + 1 ≤ b.count := by exact_mod_cast h
  have hbound : (b.count : ℚ) ≤ 2 ^ 51 := by exact_mod_cast hb.count_le.trans hfew
  rw [fraction, fraction, quotient, quotient, hrelays, ← mul_div_assoc,
    div_lt_div_iff_of_pos_right hpos]
  norm_num [unit]
  linarith

/-- So the floats are in the order of the shares. -/
theorem IsPart.toFloat_lt_iff (ha : a.IsPart) (hb : b.IsPart)
    (hrelays : a.relayCount = b.relayCount) (hfew : b.relayCount ≤ 2 ^ 51) :
    a.toFloat < b.toFloat ↔ a.fraction < b.fraction := by
  rw [ha.approximates.lt_iff hb.approximates, fraction_lt_iff hb.relayCount_pos hrelays]
  rcases lt_trichotomy a.count b.count with hlt | heq | hgt
  · exact iff_of_true (ha.value_lt hb hrelays hfew hlt) hlt
  · have hsame : a.toFloat = b.toFloat := by rw [toFloat, toFloat, quotient, quotient, heq, hrelays]
    rw [hsame, heq]
    exact iff_of_false (lt_irrefl _) (lt_irrefl _)
  · have hless := hb.value_lt ha hrelays.symm (hrelays ▸ hfew) hgt
    exact iff_of_false hless.not_gt hgt.not_gt

end Share

namespace History

/-- The average when all divisions are exact. -/
def exactAverage (h : History) : ℚ := h.mean Nat.cast

variable {h : History}

theorem exactAverage_eq_zero_of_nil (hnil : h.shares = []) : h.exactAverage = 0 := by
  simp [exactAverage, mean, hnil]

theorem exactAverage_of_ne_nil (hne : h.shares ≠ []) :
    h.exactAverage = (h.shares.map Share.fraction).sum / h.shares.length := by
  rw [exactAverage, mean, if_neg (by simpa using hne), List.sum_eq_foldl, Nat.cast_zero]
  rfl

/-- The float of the average is rounded once for each share, once for each addition and once for
the division. -/
structure IsRounded (h : History) : Prop where
  isFinite : h.average.isFinite = true
  abs_value_sub_le : |value h.average - h.exactAverage| ≤
    (h.shares.length + 1) / 2 ^ 52 * h.exactAverage

theorem approximates_average (hne : h.shares ≠ []) (hlength : h.shares.length ≤ limit)
    (hparts : ∀ s ∈ h.shares, s.IsPart) :
    Approximates (h.shares.length + 1) h.average h.exactAverage := by
  have hpos : 0 < h.shares.length := List.length_pos_iff.mpr hne
  have hpos' : (0 : ℚ) < h.shares.length := Nat.cast_pos.mpr hpos
  have hlimit : h.shares.length ≤ 256 := hlength
  have hfew : (h.shares.length : ℚ) ≤ 256 := by exact_mod_cast hlength
  obtain ⟨hsum, hlow, hhigh⟩ := approximates_sum (f := Share.toFloat) (g := Share.fraction) hne
    (by omega) fun s hs => ⟨(hparts s hs).approximates, (hparts s hs).fraction_bounds⟩
  rw [average, mean, if_neg (by simpa using hne), exactAverage_of_ne_nil hne]
  refine hsum.div (approximates_ofNat hpos (by omega)) (by omega) ?_ ?_
  · rw [le_div_iff₀ hpos']
    exact le_trans (by linarith) hlow
  · rw [div_le_iff₀ hpos']
    linarith

theorem isRounded_average (hlength : h.shares.length ≤ limit) (hparts : ∀ s ∈ h.shares, s.IsPart) :
    h.IsRounded := by
  by_cases hnil : h.shares = []
  · have haverage : h.average = Float.ofNat 0 := by simp [average, mean, hnil]
    have hvalue : value (Float.ofNat 0) = 0 := by rfl
    refine ⟨haverage ▸ rfl, ?_⟩
    rw [haverage, hvalue, exactAverage_eq_zero_of_nil hnil]
    simp
  · have haverage := approximates_average hnil hlength hparts
    obtain ⟨m, e, hnormal⟩ := haverage.exists_isNormal
    have hpow : (1 + unit) ^ (h.shares.length + 1) ≤ 1 + (h.shares.length + 1 : ℕ) / 2 ^ 52 := by
      have hlimit : h.shares.length ≤ 256 := hlength
      exact pow_unit_le (by omega)
    rw [Nat.cast_add_one] at hpow
    refine ⟨hnormal.isFinite, (haverage.near.abs_sub_le haverage.pos.le).trans ?_⟩
    exact mul_le_mul_of_nonneg_right (by linarith) haverage.pos.le

end History
end VoteTrace
