import VoteTrace.Proofs.Spread.Stage

namespace VoteTrace

/-- What is counted as a walk goes on, and how many hops of the ring are still to be walked. -/
@[ext]
structure Meter where
  hops : Nat
  unresolved : Nat
  rings : Nat
  left : Nat
deriving DecidableEq

namespace Meter

def zero : Meter := ⟨0, 0, 0, 0⟩

/-- Where a ring is done, all the hops that wait are the next one. -/
def enter (m : Meter) (waiting : Nat) : Meter :=
  if m.left = 0 then { m with rings := m.rings + 1, left := waiting } else m

/-- Counts the hop that is to be walked. -/
def count (m : Meter) (s : Stage) : Meter :=
  match s.waiting with
  | [] => m
  | a :: waiting =>
    let m := m.enter (waiting.length + 1)
    { m with
      hops := m.hops + 1
      unresolved := m.unresolved + if a.hop.relay.isNone then 1 else 0
      left := m.left - 1 }

/-- The meter is right at a stage: what is left of a ring waits in front of the next one. -/
structure Reads (m : Meter) (s : Stage) : Prop where
  hops_eq : m.hops = s.walked.length
  unresolved_eq : m.unresolved = s.walked.countP fun a => a.hop.relay.isNone
  rings_eq : m.rings = s.walked.getLast?.elim 0 Arrival.level
  waiting_eq : ∃ ring next, s.waiting = ring ++ next ∧ ring.length = m.left ∧
    (∀ a ∈ ring, a.level = m.rings) ∧ ∀ a ∈ next, a.level = m.rings + 1

theorem reads_start {firsts : List Arrival} (h : ∀ a ∈ firsts, a.level = 1) (pool : Pool) :
    zero.Reads ⟨[], firsts, pool⟩ :=
  ⟨rfl, rfl, rfl, [], firsts, rfl, rfl, List.forall_mem_nil _, h⟩

variable {m : Meter} {walked waiting : List Arrival} {a : Arrival} {pool : Pool}

/-- A hop is walked in the ring of its level. -/
theorem Reads.enter (h : m.Reads ⟨walked, a :: waiting, pool⟩) :
    (m.enter (waiting.length + 1)).rings = a.level ∧
      ∃ ring next, waiting = ring ++ next ∧
        ring.length = (m.enter (waiting.length + 1)).left - 1 ∧
        (∀ b ∈ ring, b.level = a.level) ∧ ∀ b ∈ next, b.level = a.level + 1 := by
  obtain ⟨ring, next, hwaiting, hleft, hring, hnext⟩ := h.waiting_eq
  cases ring with
  | nil =>
      obtain rfl : a :: waiting = next := hwaiting
      have ha : a.level = m.rings + 1 := hnext a List.mem_cons_self
      have hdone : m.left = 0 := hleft.symm
      rw [Meter.enter, if_pos hdone]
      refine ⟨ha.symm, waiting, [], (List.append_nil _).symm, rfl, ?_, List.forall_mem_nil _⟩
      intro b hb
      rw [ha]
      exact hnext b (List.mem_cons_of_mem a hb)
  | cons b ring =>
      obtain ⟨rfl, rfl⟩ := List.cons.inj hwaiting
      have ha : a.level = m.rings := hring a List.mem_cons_self
      have hne : m.left ≠ 0 := by
        rw [← hleft]
        exact Nat.succ_ne_zero _
      rw [Meter.enter, if_neg hne, ha, ← hleft]
      exact ⟨rfl, ring, next, rfl, rfl, fun b hb => hring b (List.mem_cons_of_mem a hb), hnext⟩

theorem Reads.count_step (h : m.Reads ⟨walked, a :: waiting, pool⟩) :
    (m.count ⟨walked, a :: waiting, pool⟩).Reads (Stage.step ⟨walked, a :: waiting, pool⟩) := by
  obtain ⟨hrings, ring, next, hwaiting, hleft, hring, hnext⟩ := h.enter
  have hkept : (m.enter (waiting.length + 1)).hops = m.hops ∧
      (m.enter (waiting.length + 1)).unresolved = m.unresolved := by
    rw [Meter.enter]
    split <;> exact ⟨rfl, rfl⟩
  have hhops := h.hops_eq
  have hunresolved := h.unresolved_eq
  simp only at hhops hunresolved
  rw [Stage.step_cons]
  refine ⟨?_, ?_, ?_, ring, next ++ ((pool.spend a.node).1.filter Connection.hasPeer).map a.onward,
    ?_, ?_, ?_, ?_⟩
  · simp [count, hkept, hhops]
  · simp [count, hkept, hunresolved, List.countP_append]
  · simp [count, hrings]
  · simp [hwaiting]
  · exact hleft
  · intro b hb
    exact (hring b hb).trans hrings.symm
  · intro b hb
    simp only [count, hrings]
    rcases List.mem_append.mp hb with hb | hb
    · exact hnext b hb
    · obtain ⟨row, -, rfl⟩ := List.mem_map.mp hb
      rfl

end Meter
end VoteTrace
