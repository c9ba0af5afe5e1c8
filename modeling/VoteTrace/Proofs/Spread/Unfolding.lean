import VoteTrace.Proofs.Earlier
import VoteTrace.Proofs.Spread.Stage

namespace VoteTrace

/-- The rows over which a walk goes on from a node when other nodes have been spent before,
the latest first. -/
def onwardRows (rows : List Connection) (spent : List String) (guid : String) :
    List Connection :=
  (rows.filter fun row =>
    row.source.guid == guid && row.hasPeer && !row.touchesAny spent).reverse

theorem mem_onwardRows {rows : List Connection} {spent : List String} {guid : String}
    {row : Connection} :
    row ∈ onwardRows rows spent guid ↔
      row ∈ rows ∧ row.source.guid = guid ∧ row.hasPeer = true ∧
        row.touchesAny spent = false := by
  simp [onwardRows, and_assoc]

theorem notMem_of_mem_onwardRows {rows : List Connection} {spent : List String}
    {guid : String} {row : Connection} (h : row ∈ onwardRows rows spent guid) :
    guid ∉ spent ∧ row.peer.guid ∉ spent := by
  obtain ⟨-, rfl, -, hspent⟩ := mem_onwardRows.mp h
  exact Connection.touchesAny_eq_false_iff.mp hspent

theorem filter_hasPeer_forward_after (rows : List Connection) (spent : List String)
    (guid : String) :
    ((Pool.after rows spent).forward guid).filter Connection.hasPeer =
      onwardRows rows spent guid := by
  rw [Pool.forward_after, onwardRows, List.filter_reverse, List.filter_filter]
  congr 2
  funext row
  cases row.hasPeer <;> cases row.touchesAny spent <;> simp

namespace Arrival

def next (rows : List Connection) (earlier : List Arrival) (a : Arrival) : List Arrival :=
  (onwardRows rows (earlier.map node) a.node).map a.onward

theorem mem_next {rows : List Connection} {earlier : List Arrival} {a b : Arrival} :
    b ∈ next rows earlier a ↔
      ∃ row ∈ onwardRows rows (earlier.map node) a.node, b = a.onward row := by
  simp only [next, List.mem_map, eq_comm]

theorem notMem_and_ne_of_mem_next {rows : List Connection} (earlier : List Arrival)
    (a b : Arrival) (h : b ∈ next rows earlier a) : b ∉ earlier ∧ b ≠ a := by
  obtain ⟨row, hrow, rfl⟩ := mem_next.mp h
  constructor
  · intro hmem
    exact (notMem_of_mem_onwardRows hrow).2 (List.mem_map_of_mem hmem)
  · intro heq
    exact Nat.succ_ne_self a.level (congrArg Arrival.level heq)

end Arrival

namespace Stage

/-- What every step keeps. -/
structure Unfolds (rows : List Connection) (firsts : List Arrival) (s : Stage) : Prop where
  pool_eq : s.pool = Pool.after rows (s.walked.map Arrival.node)
  queue_eq : s.walked ++ s.waiting = firsts ++ offspring (Arrival.next rows) s.walked
  /-- A level costs a row. -/
  level_le : ∀ a ∈ s.walked ++ s.waiting, a.level + s.pool.freshSlots ≤ rows.length + 1

theorem unfolds_start {rows : List Connection} {firsts : List Arrival}
    (hfirsts : ∀ a ∈ firsts, a.level = 1) :
    Unfolds rows firsts ⟨[], firsts, Pool.ofRows rows⟩ := by
  refine ⟨(Pool.after_nil rows).symm, by simp [offspring, withEarlier], ?_⟩
  intro a ha
  have hfresh : (Pool.ofRows rows).freshSlots ≤ rows.length := by
    rw [← Pool.after_nil, Pool.freshSlots_after]
    exact List.countP_le_length
  rw [hfirsts a ha]
  simp only
  omega

theorem Unfolds.step {rows : List Connection} {firsts walked waiting : List Arrival}
    {a : Arrival} {pool : Pool} (h : Unfolds rows firsts ⟨walked, a :: waiting, pool⟩) :
    Unfolds rows firsts (step ⟨walked, a :: waiting, pool⟩) := by
  obtain ⟨hpool, hqueue, hlevel⟩ := h
  simp only at hpool hqueue hlevel
  have hdrawn := pool.length_spend_add_freshSlots_le a.node
  have hspend : pool.spend a.node =
      (pool.forward a.node, Pool.after rows ((walked ++ [a]).map Arrival.node)) := by
    rw [hpool, Pool.spend_after, List.map_append, List.map_singleton]
  have hnext : ((pool.forward a.node).filter Connection.hasPeer).map a.onward =
      Arrival.next rows walked a := by
    rw [hpool, filter_hasPeer_forward_after, Arrival.next]
  rw [hspend] at hdrawn
  simp only at hdrawn
  rw [step_cons, hspend, hnext]
  refine ⟨rfl, ?_, ?_⟩
  · calc
      walked ++ [a] ++ (waiting ++ Arrival.next rows walked a) =
          walked ++ a :: waiting ++ Arrival.next rows walked a := by simp
      _ = firsts ++ offspring (Arrival.next rows) (walked ++ [a]) := by
        rw [hqueue, offspring_append_singleton, List.append_assoc]
  · intro b hb
    simp only
    have hcases : b ∈ walked ++ a :: waiting ∨ b ∈ Arrival.next rows walked a := by
      simp only [List.mem_append, List.mem_cons, List.not_mem_nil] at hb ⊢
      tauto
    rcases hcases with hold | hnew
    · have hb := hlevel b hold
      omega
    -- A new hop comes over a row that is no longer fresh, which pays for its level.
    · have ha := hlevel a (by simp)
      rw [← hnext] at hnew
      obtain ⟨row, hrow, rfl⟩ := List.mem_map.mp hnew
      have hdrawnPos := List.length_pos_of_mem (List.mem_filter.mp hrow).1
      simp only [Arrival.level_onward]
      omega

end Stage

theorem level_le_of_mem_walk {level : Nat} {ring : List Hop} {pool : Pool} :
    ∀ a ∈ (walk level ring pool).1, level ≤ a.level := by
  fun_induction walk level ring pool with
  | case1 level pool => simp
  | case2 level hop ring pool next rest ih =>
      intro a ha
      rcases List.mem_append.mp ha with ha | ha
      · obtain ⟨hop', _, rfl⟩ := List.mem_map.mp ha
        exact Nat.le_refl _
      · exact Nat.le_of_succ_le (ih a ha)

theorem pairwise_level_walk (level : Nat) (ring : List Hop) (pool : Pool) :
    (walk level ring pool).1.Pairwise fun a b => a.level ≤ b.level := by
  fun_induction walk level ring pool with
  | case1 level pool => exact .nil
  | case2 level hop ring pool next rest ih =>
      refine List.pairwise_append.mpr ⟨?_, ih, ?_⟩
      · rw [List.pairwise_map]
        exact List.pairwise_of_forall fun _ _ => Nat.le_refl _
      · intro a ha b hb
        obtain ⟨hop', _, rfl⟩ := List.mem_map.mp ha
        have hlevel : level + 1 ≤ b.level := level_le_of_mem_walk b hb
        exact Nat.le_of_succ_le hlevel

/-- The first arrival at a node splits the arrivals. -/
theorem exists_first_at {guid : String} {arrivals : List Arrival}
    (h : ∃ a ∈ arrivals, a.node = guid) :
    ∃ earlier a later, arrivals = earlier ++ a :: later ∧ a.node = guid ∧
      guid ∉ earlier.map Arrival.node := by
  obtain ⟨a, hmem, rfl⟩ := h
  obtain ⟨b, hb⟩ := Option.isSome_iff_exists.mp
    (List.find?_isSome.mpr ⟨a, hmem, beq_self_eq_true a.node⟩ :
      (arrivals.find? fun b => b.node == a.node).isSome = true)
  obtain ⟨hnode, earlier, later, rfl, hearlier⟩ := List.find?_eq_some_iff_append.mp hb
  refine ⟨earlier, b, later, rfl, by simpa using hnode, ?_⟩
  intro hguid
  obtain ⟨c, hc, hcnode⟩ := List.mem_map.mp hguid
  simpa [hcnode] using hearlier c hc

namespace Spread

/-- The arrivals over the links of the origin. -/
def firsts (rows : List Connection) (o : Origin) : List Arrival :=
  (seedHops rows o).map (Arrival.mk 1)

def walked (rows : List Connection) (o : Origin) : List Arrival :=
  (walk 1 (seedHops rows o) (Pool.ofRows rows)).1

theorem unfolds_walked (rows : List Connection) (o : Origin) :
    Stage.Unfolds rows (firsts rows o)
      ⟨walked rows o, [], (walk 1 (seedHops rows o) (Pool.ofRows rows)).2⟩ := by
  apply Stage.walk_induction
  · intro done a waiting pool h
    exact h.step
  · apply Stage.unfolds_start
    simp [firsts]

theorem walked_eq (rows : List Connection) (o : Origin) :
    walked rows o = firsts rows o ++ offspring (Arrival.next rows) (walked rows o) := by
  simpa using (unfolds_walked rows o).queue_eq

variable {rows : List Connection} {o : Origin}

theorem mem_firsts {a : Arrival} :
    a ∈ firsts rows o ↔ ∃ link ∈ o.seeds, a = ⟨1, Hop.seed rows o link⟩ := by
  simp [firsts, seedHops, eq_comm]

theorem first_or_onward {earlier later : List Arrival} {a : Arrival}
    (h : walked rows o = earlier ++ a :: later) :
    a ∈ firsts rows o ∨
      ∃ before b between, earlier = before ++ b :: between ∧
        ∃ row ∈ onwardRows rows (before.map Arrival.node) b.node, a = b.onward row := by
  have hprefix := append_singleton_prefix_of_eq_offspring
    Arrival.notMem_and_ne_of_mem_next (walked_eq rows o) h
  have ha := hprefix.subset (List.mem_append_right earlier List.mem_cons_self)
  rcases List.mem_append.mp ha with ha | ha
  · exact .inl ha
  · obtain ⟨before, b, between, hearlier, hb⟩ := mem_offspring.mp ha
    exact .inr ⟨before, b, between, hearlier, Arrival.mem_next.mp hb⟩

/-- What holds of the first hops and passes on over onward rows holds of every arrival. -/
theorem walked_induction {P : Arrival → Prop} (hfirst : ∀ a ∈ firsts rows o, P a)
    (honward : ∀ earlier b later row, walked rows o = earlier ++ b :: later →
      row ∈ onwardRows rows (earlier.map Arrival.node) b.node → P b → P (b.onward row)) :
    ∀ a ∈ walked rows o, P a := by
  apply forall_mem_of_forall_earlier
  intro earlier a later hwalked hearlier
  rcases first_or_onward hwalked with ha | ⟨before, b, between, rfl, row, hrow, rfl⟩
  · exact hfirst a ha
  · have hb : walked rows o = before ++ b :: (between ++ b.onward row :: later) := by
      simp [hwalked]
    exact honward before b _ row hb hrow (hearlier b (by simp))

theorem onward_mem_walked {earlier later : List Arrival} {a : Arrival}
    (h : walked rows o = earlier ++ a :: later) {row : Connection}
    (hrow : row ∈ onwardRows rows (earlier.map Arrival.node) a.node) :
    a.onward row ∈ walked rows o := by
  rw [walked_eq]
  apply List.mem_append_right
  exact mem_offspring.mpr ⟨earlier, a, later, h, Arrival.mem_next.mpr ⟨row, hrow, rfl⟩⟩

theorem level_walked_le {a : Arrival} (h : a ∈ walked rows o) :
    a.level ≤ rows.length + 1 := by
  have hlevel := (unfolds_walked rows o).level_le a (List.mem_append_left _ h)
  omega

theorem level_walked_pos {a : Arrival} (h : a ∈ walked rows o) : 0 < a.level :=
  level_le_of_mem_walk a h

theorem pairwise_level_walked (rows : List Connection) (o : Origin) :
    (walked rows o).Pairwise fun a b => a.level ≤ b.level :=
  pairwise_level_walk 1 (seedHops rows o) (Pool.ofRows rows)

/-- An arrival at a node that is not placed before `a` comes no higher than `a`. -/
theorem level_le_of_notMem_earlier {earlier later : List Arrival} {a b : Arrival}
    (h : walked rows o = earlier ++ a :: later) (hb : b ∈ walked rows o)
    (hnew : b.node ∉ earlier.map Arrival.node) : a.level ≤ b.level := by
  have hsorted := pairwise_level_walked rows o
  rw [h, List.pairwise_append] at hsorted
  rw [h] at hb
  rcases List.mem_append.mp hb with hb | hb
  · exact absurd (List.mem_map_of_mem hb) hnew
  · rcases List.mem_cons.mp hb with rfl | hb
    · exact Nat.le_refl _
    · exact (List.pairwise_cons.mp hsorted.2.1).1 b hb

theorem spent_ofOrigin (rows : List Connection) (o : Origin) (seen : RelaySet) :
    (ofOrigin rows o seen).tally.spent =
      rows.countP fun row => row.touchesAny ((walked rows o).map Arrival.node) := by
  have hpool := (unfolds_walked rows o).pool_eq
  simp only at hpool
  simp only [ofOrigin, ofWalk, hpool, Pool.spentCount_after]

theorem hops_eq_and_rings_eq {rows' : List Connection} {o' : Origin}
    (h : (walked rows o).map Arrival.level = (walked rows' o').map Arrival.level)
    (seen seen' : RelaySet) :
    (ofOrigin rows o seen).tally.hops = (ofOrigin rows' o' seen').tally.hops ∧
      (ofOrigin rows o seen).tally.rings = (ofOrigin rows' o' seen').tally.rings := by
  have hlast : ∀ arrivals : List Arrival, arrivals.getLast?.elim 0 Arrival.level =
      (arrivals.map Arrival.level).getLast?.getD 0 := by
    intro arrivals
    rw [List.getLast?_map]
    cases arrivals.getLast? <;> rfl
  constructor
  · have hlength := congrArg List.length h
    rwa [List.length_map, List.length_map] at hlength
  · change UInt32.ofNat ((walked rows o).getLast?.elim 0 Arrival.level) =
      UInt32.ofNat ((walked rows' o').getLast?.elim 0 Arrival.level)
    rw [hlast, hlast, h]

end Spread
end VoteTrace
