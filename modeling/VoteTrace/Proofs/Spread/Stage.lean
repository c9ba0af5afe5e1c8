import Mathlib.Logic.Function.Iterate
import VoteTrace.Proofs.Spread.Spending
import VoteTrace.Spread.Walk

/-!
The walk one hop at a time. Rings do not show here: all hops that wait stand in one queue, and
a hop that joins it is one level above the hop it follows from.

Main statement: a walk ring by ring ends where the steps end, so what holds at the start and
is kept by each step holds at its end.
-/

namespace VoteTrace

namespace Arrival

def node (a : Arrival) : String := a.hop.node

/-- The hop over a row that starts where `a` ended, a level higher. -/
def onward (a : Arrival) (row : Connection) : Arrival :=
  ⟨a.level + 1, a.hop.onward row⟩

@[simp] theorem node_onward (a : Arrival) (row : Connection) :
    (a.onward row).node = row.peer.guid := rfl

@[simp] theorem level_onward (a : Arrival) (row : Connection) :
    (a.onward row).level = a.level + 1 := rfl

end Arrival

/-- A walk part way through. -/
structure Stage where
  walked : List Arrival
  waiting : List Arrival
  pool : Pool

namespace Stage

/-- Walks the hop that has waited longest; at the end there is none. -/
def step (s : Stage) : Stage :=
  match s.waiting with
  | [] => s
  | a :: waiting =>
    let drawn := s.pool.spend a.node
    { walked := s.walked ++ [a]
      waiting := waiting ++ (drawn.1.filter Connection.hasPeer).map a.onward
      pool := drawn.2 }

theorem step_cons (walked waiting : List Arrival) (a : Arrival) (pool : Pool) :
    step ⟨walked, a :: waiting, pool⟩ =
      ⟨walked ++ [a],
        waiting ++ ((pool.spend a.node).1.filter Connection.hasPeer).map a.onward,
        (pool.spend a.node).2⟩ := rfl

/-- One ring. Hops of the next ring may wait behind it already. -/
theorem iterate_step_walkRing (level : Nat) (ring next : List Hop) (walked : List Arrival)
    (pool : Pool) :
    step^[ring.length] ⟨walked,
        ring.map (Arrival.mk level) ++ next.map (Arrival.mk (level + 1)), pool⟩ =
      ⟨walked ++ ring.map (Arrival.mk level),
        (next ++ (walkRing ring pool).1).map (Arrival.mk (level + 1)),
        (walkRing ring pool).2⟩ := by
  induction ring generalizing next walked pool with
  | nil => simp [walkRing]
  | cons hop ring ih =>
      have hnext : ((pool.spend hop.node).1.filter Connection.hasPeer).map
          (Arrival.onward ⟨level, hop⟩) =
            (hop.next (pool.spend hop.node).1).map (Arrival.mk (level + 1)) := by
        rw [Hop.next, List.map_map]
        rfl
      have hih := ih (next ++ hop.next (pool.spend hop.node).1) (walked ++ [⟨level, hop⟩])
        (pool.spend hop.node).2
      rw [List.length_cons, Function.iterate_succ_apply, List.map_cons, List.cons_append,
        step_cons]
      simp only [Arrival.node, hnext, walkRing]
      simpa only [List.map_append, List.append_assoc, List.singleton_append] using hih

theorem iterate_step_walk (level : Nat) (ring : List Hop) (pool : Pool)
    (walked : List Arrival) :
    step^[(walk level ring pool).1.length] ⟨walked, ring.map (Arrival.mk level), pool⟩ =
      ⟨walked ++ (walk level ring pool).1, [], (walk level ring pool).2⟩ := by
  fun_induction walk level ring pool generalizing walked with
  | case1 level pool => simp
  | case2 level hop ring pool next rest ih =>
      have hring := iterate_step_walkRing level (hop :: ring) [] walked pool
      simp only [List.map_nil, List.append_nil, List.nil_append] at hring
      rw [List.length_append, List.length_map, Nat.add_comm, Function.iterate_add_apply,
        hring, ih, List.append_assoc]

theorem iterate_induction {P : Stage → Prop}
    (hstep : ∀ walked a waiting pool, P ⟨walked, a :: waiting, pool⟩ →
      P (step ⟨walked, a :: waiting, pool⟩))
    (n : Nat) {s : Stage} (hs : P s) : P (step^[n] s) := by
  induction n generalizing s with
  | zero => exact hs
  | succ n ih =>
      rw [Function.iterate_succ_apply]
      apply ih
      rcases s with ⟨walked, _ | ⟨a, waiting⟩, pool⟩
      · exact hs
      · exact hstep walked a waiting pool hs

/-- What holds before the first hop and is kept by every step holds after the last hop. -/
theorem walk_induction {P : Stage → Prop}
    (hstep : ∀ walked a waiting pool, P ⟨walked, a :: waiting, pool⟩ →
      P (step ⟨walked, a :: waiting, pool⟩))
    {level : Nat} {ring : List Hop} {pool : Pool}
    (hstart : P ⟨[], ring.map (Arrival.mk level), pool⟩) :
    P ⟨(walk level ring pool).1, [], (walk level ring pool).2⟩ := by
  have hend := iterate_induction hstep (walk level ring pool).1.length hstart
  rwa [iterate_step_walk, List.nil_append] at hend

end Stage
end VoteTrace
