namespace VoteTrace

structure TimeWindow where
  start : UInt64
  stop : UInt64
deriving DecidableEq

namespace TimeWindow

/-- The `span` seconds up to `stop`; time begins at 0. -/
def endingAt (stop span : UInt64) : TimeWindow :=
  ⟨if stop < span then 0 else stop - span, stop⟩

def contains (w : TimeWindow) (t : UInt64) : Bool :=
  w.start ≤ t && t ≤ w.stop

theorem contains_endingAt_iff (stop span t : UInt64) :
    (endingAt stop span).contains t = true ↔
      t.toNat ≤ stop.toNat ∧ stop.toNat - t.toNat ≤ span.toNat := by
  simp only [contains, endingAt, Bool.and_eq_true, decide_eq_true_eq, UInt64.le_iff_toNat_le]
  split
  · rename_i h
    rw [UInt64.lt_iff_toNat_lt] at h
    simp only [UInt64.toNat_zero]
    omega
  · rename_i h
    rw [UInt64.lt_iff_toNat_lt] at h
    rw [UInt64.toNat_sub_of_le _ _ (by rw [UInt64.le_iff_toNat_le]; omega)]
    omega

end TimeWindow
end VoteTrace
