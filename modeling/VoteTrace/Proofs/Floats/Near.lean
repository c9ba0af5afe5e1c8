import Mathlib.Algebra.Order.Field.Rat
import Mathlib.Algebra.Order.Ring.Pow
import Mathlib.Tactic.Linarith
import Mathlib.Tactic.Ring

namespace VoteTrace.Rounding

/-- Half of the last of the 53 bits, at most: what one rounding is off by, relatively. -/
def unit : ℚ := 1 / 2 ^ 53

/-- The numbers are the same up to `k` roundings. -/
structure Near (k : Nat) (p q : ℚ) : Prop where
  le : p ≤ (1 + unit) ^ k * q
  ge : q ≤ (1 + unit) ^ k * p

variable {k l : Nat} {p q r : ℚ}

theorem unit_pos : 0 < unit := by norm_num [unit]

theorem pow_pos_of_unit (k : Nat) : 0 < (1 + unit) ^ k :=
  pow_pos (add_pos one_pos unit_pos) k

theorem Near.symm (h : Near k p q) : Near k q p := ⟨h.ge, h.le⟩

theorem Near.refl (p : ℚ) : Near 0 p p := by
  constructor <;> simp

theorem Near.trans (h : Near k p q) (h' : Near l q r) : Near (k + l) p r := by
  constructor
  · calc p ≤ (1 + unit) ^ k * q := h.le
      _ ≤ (1 + unit) ^ k * ((1 + unit) ^ l * r) :=
          mul_le_mul_of_nonneg_left h'.le (pow_pos_of_unit k).le
      _ = (1 + unit) ^ (k + l) * r := by rw [pow_add, mul_assoc]
  · calc r ≤ (1 + unit) ^ l * q := h'.ge
      _ ≤ (1 + unit) ^ l * ((1 + unit) ^ k * p) :=
          mul_le_mul_of_nonneg_left h.ge (pow_pos_of_unit l).le
      _ = (1 + unit) ^ (k + l) * p := by rw [pow_add]; ring

theorem Near.mono (h : Near k p q) (hkl : k ≤ l) (hp : 0 ≤ p) (hq : 0 ≤ q) : Near l p q := by
  have hpow : (1 + unit) ^ k ≤ (1 + unit) ^ l :=
    pow_le_pow_right₀ (by linarith [unit_pos]) hkl
  exact ⟨h.le.trans (mul_le_mul_of_nonneg_right hpow hq),
    h.ge.trans (mul_le_mul_of_nonneg_right hpow hp)⟩

theorem Near.add {p' q' : ℚ} (h : Near k p q) (h' : Near k p' q') : Near k (p + p') (q + q') := by
  constructor
  · rw [mul_add]
    exact add_le_add h.le h'.le
  · rw [mul_add]
    exact add_le_add h.ge h'.ge

theorem div_le_of_le {p' q' : ℚ} (h : p ≤ (1 + unit) ^ k * q) (h' : q' ≤ (1 + unit) ^ l * p')
    (hq : 0 ≤ q) (hp' : 0 < p') (hq' : 0 < q') : p / p' ≤ (1 + unit) ^ (k + l) * (q / q') := by
  have hscaled : 0 ≤ (1 + unit) ^ k * (q / q') :=
    mul_nonneg (pow_pos_of_unit k).le (div_nonneg hq hq'.le)
  rw [div_le_iff₀ hp']
  calc p ≤ (1 + unit) ^ k * q := h
    _ = (1 + unit) ^ k * (q / q') * q' := by rw [mul_assoc, div_mul_cancel₀ q hq'.ne']
    _ ≤ (1 + unit) ^ k * (q / q') * ((1 + unit) ^ l * p') := mul_le_mul_of_nonneg_left h' hscaled
    _ = (1 + unit) ^ (k + l) * (q / q') * p' := by rw [pow_add]; ring

theorem Near.div {p' q' : ℚ} (h : Near k p q) (h' : Near l p' q') (hp : 0 ≤ p) (hq : 0 ≤ q)
    (hp' : 0 < p') (hq' : 0 < q') : Near (k + l) (p / p') (q / q') :=
  ⟨div_le_of_le h.le h'.ge hq hp' hq', div_le_of_le h.ge h'.le hp hq' hp'⟩

theorem Near.abs_sub_le (h : Near k p q) (hq : 0 ≤ q) :
    |p - q| ≤ ((1 + unit) ^ k - 1) * q := by
  have hgrows : 0 ≤ (1 + unit) ^ k - 1 :=
    sub_nonneg.mpr (one_le_pow₀ (by linarith [unit_pos]))
  rw [abs_le]
  constructor
  · rcases le_total p q with hpq | hpq
    · have hshrunk := mul_le_mul_of_nonneg_left hpq hgrows
      linarith [h.ge]
    · linarith [mul_nonneg hgrows hq]
  · linarith [h.le]

/-- Roundings add up, and hardly more, as long as they are few. -/
theorem pow_unit_le (h : k ≤ 2 ^ 52) : (1 + unit) ^ k ≤ 1 + k / 2 ^ 52 := by
  have hk : (k : ℚ) ≤ 2 ^ 52 := by exact_mod_cast h
  have hbernoulli : 1 + k * -unit ≤ (1 + -unit) ^ k :=
    one_add_mul_le_pow (by norm_num [unit]) k
  have hcancel : (1 + unit) ^ k * (1 + -unit) ^ k ≤ 1 := by
    rw [← mul_pow]
    exact pow_le_one₀ (by norm_num [unit]) (by norm_num [unit])
  have hproduct : (1 + unit) ^ k * (1 + k * -unit) ≤ 1 :=
    (mul_le_mul_of_nonneg_left hbernoulli (pow_pos_of_unit k).le).trans hcancel
  rw [unit] at hproduct ⊢
  have hrest : (1 : ℚ) / 2 ≤ 1 + k * -(1 / 2 ^ 53) := by linarith
  have hbound : 1 ≤ (1 + (k : ℚ) / 2 ^ 52) * (1 + k * -(1 / 2 ^ 53)) := by
    nlinarith [Nat.cast_nonneg (α := ℚ) k]
  exact le_of_mul_le_mul_right (hproduct.trans hbound) (by linarith)

theorem Near.le_two_mul (h : Near k p q) (hk : k ≤ 2 ^ 52) (hq : 0 ≤ q) : p ≤ 2 * q := by
  have hk' : (k : ℚ) ≤ 2 ^ 52 := by exact_mod_cast hk
  have hpow : (1 + unit) ^ k ≤ 2 := (pow_unit_le hk).trans (by linarith)
  exact h.le.trans (mul_le_mul_of_nonneg_right hpow hq)

/-- What is rounded to 53 bits is rounded once. -/
theorem near_of_abs_sub_le {r : Nat} {y : ℚ} (hr : 2 ^ 52 ≤ r) (hy : 2 ^ 52 ≤ y)
    (h : |(r : ℚ) - y| ≤ 1 / 2) : Near 1 r y := by
  have hr' : (2 : ℚ) ^ 52 ≤ r := by exact_mod_cast hr
  obtain ⟨hlow, hhigh⟩ := abs_le.mp h
  constructor <;> rw [pow_one, unit] <;> linarith

theorem Near.mul_right (h : Near k p q) (hr : 0 ≤ r) : Near k (p * r) (q * r) := by
  constructor
  · rw [← mul_assoc]
    exact mul_le_mul_of_nonneg_right h.le hr
  · rw [← mul_assoc]
    exact mul_le_mul_of_nonneg_right h.ge hr

end VoteTrace.Rounding
