import Mathlib.Data.List.Chain
import Mathlib.Data.Nat.Init
import VoteTrace.Proofs.Spread.Lineage
import VoteTrace.Proofs.Spread.Meter

namespace VoteTrace

namespace Stage

/-- What is still to do: the hops that wait, and the rows that can make others wait. -/
def load (s : Stage) : Nat := s.waiting.length + s.pool.fresh

theorem step_of_waiting_eq_nil {s : Stage} (h : s.waiting = []) : step s = s := by
  rcases s with ⟨walked, waiting, pool⟩
  cases h
  rfl

theorem length_walked_step_le (s : Stage) : (step s).walked.length ≤ s.walked.length + 1 := by
  rcases s with ⟨walked, _ | ⟨a, waiting⟩, pool⟩
  · exact Nat.le_succ _
  · rw [step_cons]
    simp

theorem Unfolds.fresh_eq {rows : List Connection} {firsts : List Arrival} {s : Stage}
    (h : Unfolds rows firsts s) : s.pool.fresh = s.pool.freshSlots := by
  rw [h.pool_eq, Pool.freshSlots_after]
  rfl

theorem load_step_lt {rows : List Connection} {firsts : List Arrival} {s : Stage}
    (h : Unfolds rows firsts s) (hwaiting : s.waiting ≠ []) : (step s).load < s.load := by
  rcases s with ⟨walked, _ | ⟨a, waiting⟩, pool⟩
  · exact absurd rfl hwaiting
  · have hfresh := h.fresh_eq
    have hfresh' := h.step.fresh_eq
    have hdrawn := pool.length_spend_add_freshSlots_le a.node
    have hnext := List.length_filter_le Connection.hasPeer (pool.spend a.node).1
    rw [step_cons] at hfresh' ⊢
    simp only [load, List.length_append, List.length_map, List.length_cons] at hfresh hfresh' ⊢
    omega

end Stage

namespace Spread

/-- The walk after so many hops. -/
def stageAt (rows : List Connection) (o : Origin) (n : Nat) : Stage :=
  Stage.step^[n] ⟨[], firsts rows o, Pool.ofRows rows⟩

variable {rows : List Connection} {o : Origin}

theorem stageAt_succ (rows : List Connection) (o : Origin) (n : Nat) :
    stageAt rows o (n + 1) = (stageAt rows o n).step :=
  Function.iterate_succ_apply' ..

/-- What has been counted by then. -/
def meterAt (rows : List Connection) (o : Origin) : Nat → Meter
  | 0 => .zero
  | n + 1 => (meterAt rows o n).count (stageAt rows o n)

theorem reads_meterAt (rows : List Connection) (o : Origin) (n : Nat) :
    (meterAt rows o n).Reads (stageAt rows o n) := by
  induction n with
  | zero => exact Meter.reads_start (by simp [firsts]) _
  | succ n ih =>
      rw [meterAt, stageAt_succ]
      rcases hstage : stageAt rows o n with ⟨walked, _ | ⟨a, waiting⟩, pool⟩
      · rwa [hstage] at ih
      · rw [hstage] at ih
        exact ih.count_step

theorem unfolds_stageAt (rows : List Connection) (o : Origin) (n : Nat) :
    Stage.Unfolds rows (firsts rows o) (stageAt rows o n) := by
  apply Stage.iterate_induction
  · intro done a waiting pool h
    exact h.step
  · apply Stage.unfolds_start
    simp [firsts]

theorem stageAt_length_walked (rows : List Connection) (o : Origin) :
    stageAt rows o (walked rows o).length =
      ⟨walked rows o, [], (walk 1 (seedHops rows o) (Pool.ofRows rows)).2⟩ :=
  Stage.iterate_step_walk 1 (seedHops rows o) (Pool.ofRows rows) []

theorem stageAt_eq_of_waiting_eq_nil {n m : Nat} (h : (stageAt rows o n).waiting = [])
    (hle : n ≤ m) : stageAt rows o m = stageAt rows o n := by
  induction m, hle using Nat.le_induction with
  | base => rfl
  | succ m _ ih => rw [stageAt_succ, ih, Stage.step_of_waiting_eq_nil h]

theorem length_walked_stageAt_le (rows : List Connection) (o : Origin) (n : Nat) :
    (stageAt rows o n).walked.length ≤ n := by
  induction n with
  | zero => exact Nat.le_refl 0
  | succ n ih =>
      have hstep := Stage.length_walked_step_le (stageAt rows o n)
      rw [stageAt_succ]
      omega

theorem waiting_stageAt_eq_nil_iff (n : Nat) :
    (stageAt rows o n).waiting = [] ↔ (walked rows o).length ≤ n := by
  have hend := stageAt_length_walked rows o
  constructor
  · intro h
    rcases Nat.le_total (walked rows o).length n with hle | hle
    · exact hle
    -- Nothing is walked from here on, so all has been walked in the first `n` steps.
    · have hstop := stageAt_eq_of_waiting_eq_nil h hle
      have hlength := length_walked_stageAt_le rows o n
      rwa [← hstop, hend] at hlength
  · intro hle
    rw [stageAt_eq_of_waiting_eq_nil (by rw [hend]) hle, hend]

theorem level_stageAt_le {n : Nat} {a : Arrival}
    (h : a ∈ (stageAt rows o n).walked ++ (stageAt rows o n).waiting) :
    a.level ≤ rows.length + 1 := by
  have hlevel := (unfolds_stageAt rows o n).level_le a h
  omega

/-- A level costs a row that is spent. -/
theorem level_le_spent {a : Arrival} (h : a ∈ walked rows o) (seen : RelaySet) :
    a.level ≤ 1 + (ofOrigin rows o seen).tally.spent := by
  have hunfolds := unfolds_walked rows o
  have hlevel := hunfolds.level_le a (List.mem_append_left _ h)
  have hcount := List.length_eq_countP_add_countP
    (fun row : Connection => row.touchesAny ((walked rows o).map Arrival.node)) (l := rows)
  have hpool := hunfolds.pool_eq
  simp only at hlevel hpool
  rw [hpool, Pool.freshSlots_after] at hlevel
  rw [spent_ofOrigin]
  simp only [Bool.not_eq_true, Bool.decide_eq_false] at hcount
  omega

theorem hops_ofOrigin (rows : List Connection) (o : Origin) (seen : RelaySet) :
    (ofOrigin rows o seen).tally.hops =
      o.seeds.length + rows.countP fun row => (ofOrigin rows o seen).Crosses row := by
  have hfirsts : (firsts rows o).length = o.seeds.length := by simp [firsts, seedHops]
  have hcrossings : ((crossings rows seen (walked rows o)).map Prod.fst).countP
      (fun _ => True) = rows.countP fun row => (ofOrigin rows o seen).Crosses row :=
    countP_crossings_of_iff seen (fun _ _ hrow => hrow)
      (fun _ _ hrow _ => iff_of_true trivial hrow)
  rw [← hcrossings, map_fst_crossings, ← hfirsts]
  change (walked rows o).length = _
  conv_lhs => rw [walked_eq]
  simp

theorem hops_sub_le_spent (rows : List Connection) (o : Origin) (seen : RelaySet) :
    (ofOrigin rows o seen).tally.hops - o.seeds.length ≤ (ofOrigin rows o seen).tally.spent := by
  rw [hops_ofOrigin, Nat.add_sub_cancel_left, spent_ofOrigin]
  apply List.countP_mono_left
  intro row _ hcrosses
  obtain ⟨-, earlier, a, later, hwalked, hsource, -⟩ := crosses_iff.mp (of_decide_eq_true hcrosses)
  rw [Connection.touchesAny_iff, hwalked]
  exact .inl (by simp [hsource])

/-- The counters against the rows, the links and the placements. -/
structure Balances (s : Spread) (rows : List Connection) (o : Origin) : Prop where
  hops_eq : s.tally.hops = o.seeds.length + rows.countP fun row => s.Crosses row
  size_eq : s.size = s.tally.hops + 1
  poolSize_eq : s.tally.poolSize = rows.length
  hops_sub_le : s.tally.hops - o.seeds.length ≤ s.tally.spent
  spent_le : s.tally.spent ≤ s.tally.poolSize
  unresolved_eq : s.tally.unresolved = s.arrivals.countP fun p => p.relay.isNone

theorem balances_ofOrigin (rows : List Connection) (o : Origin) (seen : RelaySet) :
    (ofOrigin rows o seen).Balances rows o := by
  refine ⟨hops_ofOrigin rows o seen, ?_, rfl, hops_sub_le_spent rows o seen, ?_, ?_⟩
  · rw [size, placements_ofOrigin, List.length_cons, List.length_map]
    rfl
  · rw [spent_ofOrigin]
    exact List.countP_le_length
  · rw [arrivals_ofOrigin, List.countP_map]
    rfl

end Spread

theorem level_of_mem_head?_walk {level : Nat} {ring : List Hop} {pool : Pool} :
    ∀ a ∈ (walk level ring pool).1.head?, a.level = level := by
  rcases ring with _ | ⟨hop, ring⟩
  · simp [walk]
  · simp [walk]

theorem isChain_level_walk (level : Nat) (ring : List Hop) (pool : Pool) :
    (walk level ring pool).1.IsChain fun a b => a.level ≤ b.level ∧ b.level ≤ a.level + 1 := by
  fun_induction walk level ring pool with
  | case1 level pool => exact .nil
  | case2 level hop ring pool next rest ih =>
      refine List.isChain_append.mpr ⟨?_, ih, ?_⟩
      · apply List.Pairwise.isChain
        rw [List.pairwise_map]
        exact List.pairwise_of_forall fun _ _ => ⟨Nat.le_refl _, Nat.le_succ _⟩
      -- From the last hop of a ring to the first of the next.
      · intro a ha b hb
        obtain ⟨hop', -, rfl⟩ := List.mem_map.mp (List.mem_of_mem_getLast? ha)
        have hlevel : b.level = level + 1 := level_of_mem_head?_walk b hb
        simp [hlevel]

/-- A ring is as far out as there are hops before it at most. -/
theorem level_lt_of_mem_walk {level : Nat} {ring : List Hop} {pool : Pool} :
    ∀ a ∈ (walk level ring pool).1, a.level < level + (walk level ring pool).1.length := by
  fun_induction walk level ring pool with
  | case1 level pool => simp
  | case2 level hop ring pool next rest ih =>
      intro a ha
      rw [List.length_append, List.length_map, List.length_cons]
      rcases List.mem_append.mp ha with ha | ha
      · obtain ⟨hop', -, rfl⟩ := List.mem_map.mp ha
        simp only
        omega
      · have hlevel := ih a ha
        simp only [rest] at hlevel ⊢
        omega

/-- The highest of levels that never fall is the last. -/
theorem foldl_max_level {l : List Placement} (h : l.Pairwise fun p q => p.level ≤ q.level)
    {level : UInt32} (hlevel : ∀ p ∈ l, level ≤ p.level) :
    l.foldl (fun level p => max level p.level) level = l.getLast?.elim level Placement.level := by
  induction l generalizing level with
  | nil => rfl
  | cons p l ih =>
      have hmax : max level p.level = p.level := if_pos (hlevel p List.mem_cons_self)
      obtain ⟨hp, hl⟩ := List.pairwise_cons.mp h
      rw [List.foldl_cons, hmax, ih hl hp, List.getLast?_cons]
      cases l.getLast? with
      | none => rfl
      | some q => rfl

namespace Spread

/-- Levels go up from the root one at a time, to the number of rings. -/
structure RingByRing (s : Spread) : Prop where
  root_level : s.root?.map Placement.level = some 0
  level_step : s.placements.IsChain fun p q =>
    p.level.toNat ≤ q.level.toNat ∧ q.level.toNat ≤ p.level.toNat + 1
  exists_level : ∀ level ≤ s.tally.rings.toNat, ∃ p ∈ s.placements, p.level.toNat = level
  last_level : s.placements.getLast?.map Placement.level = some s.tally.rings
  maxLevel_eq : s.maxLevel = s.tally.rings

variable {rows : List Connection} {o : Origin}

theorem last_level_ofOrigin (rows : List Connection) (o : Origin) (seen : RelaySet) :
    (ofOrigin rows o seen).placements.getLast?.map Placement.level =
      some (ofOrigin rows o seen).tally.rings := by
  rw [placements_ofOrigin, List.getLast?_cons, List.getLast?_map]
  change _ = some (UInt32.ofNat ((walked rows o).getLast?.elim 0 Arrival.level))
  cases (walked rows o).getLast? with
  | none => rfl
  | some a => rfl

theorem level_step_ofOrigin (hrows : rows.length < UInt32.size - 1) (seen : RelaySet) :
    (ofOrigin rows o seen).placements.IsChain fun p q =>
      p.level.toNat ≤ q.level.toNat ∧ q.level.toNat ≤ p.level.toNat + 1 := by
  have hchain : (walked rows o).IsChain fun a b => a.level ≤ b.level ∧ b.level ≤ a.level + 1 :=
    isChain_level_walk 1 (seedHops rows o) (Pool.ofRows rows)
  rw [placements_ofOrigin, List.isChain_cons, List.isChain_map]
  refine ⟨?_, hchain.imp_of_mem_imp ?_⟩
  · intro p hp
    rw [List.head?_map] at hp
    obtain ⟨a, ha, rfl⟩ := Option.map_eq_some_iff.mp hp
    have hlevel : a.level = 1 := level_of_mem_head?_walk a ha
    rw [toNat_level_place hrows (List.mem_of_mem_head? ha), hlevel]
    exact ⟨Nat.zero_le 1, Nat.le_refl 1⟩
  · intro a b ha hb hstep
    rwa [toNat_level_place hrows ha, toNat_level_place hrows hb]

/-- Levels never fall, if none is cut. -/
theorem pairwise_level_placements (hlevel : ∀ a ∈ walked rows o, a.level < UInt32.size)
    (seen : RelaySet) :
    (ofOrigin rows o seen).placements.Pairwise fun p q => p.level ≤ q.level := by
  rw [placements_ofOrigin, List.pairwise_cons, List.pairwise_map]
  refine ⟨fun p _ => UInt32.zero_le, (pairwise_level_walked rows o).imp_of_mem ?_⟩
  intro a b ha hb hle
  rw [UInt32.le_iff_toNat_le]
  change (UInt32.ofNat a.level).toNat ≤ (UInt32.ofNat b.level).toNat
  rwa [UInt32.toNat_ofNat_of_lt' (hlevel a ha), UInt32.toNat_ofNat_of_lt' (hlevel b hb)]

theorem level_lt_size {a : Arrival} (ha : a ∈ walked rows o) (seen : RelaySet) :
    a.level < (ofOrigin rows o seen).size := by
  have hlevel := level_lt_of_mem_walk a ha
  rw [size, placements_ofOrigin, List.length_cons, List.length_map, Nat.add_comm]
  exact hlevel

theorem ringByRing_ofOrigin (hrows : rows.length < UInt32.size - 1) (seen : RelaySet) :
    (ofOrigin rows o seen).RingByRing := by
  have hlast := last_level_ofOrigin rows o seen
  have hstep := level_step_ofOrigin (o := o) hrows seen
  refine ⟨rfl, hstep, ?_, hlast, ?_⟩
  -- Every level is met on the way back from the last placement.
  · intro level hle
    obtain ⟨p, hp, hrings⟩ := Option.map_eq_some_iff.mp hlast
    rw [← hrings] at hle
    rw [List.getLast?_eq_getElem?] at hp
    obtain ⟨pos, hlineage, -⟩ := exists_lineage hrows hp rfl
    obtain ⟨q, hq, hlevel⟩ := hlineage.level_eq level hle
    exact ⟨q, List.mem_of_getElem? hq, hlevel⟩
  · have hwidth : ∀ a ∈ walked rows o, a.level < UInt32.size := by
      intro a ha
      have hlevel := level_walked_le ha
      omega
    have hsorted := pairwise_level_placements hwidth seen
    rw [maxLevel, foldl_max_level hsorted fun p _ => UInt32.zero_le]
    cases hend : (ofOrigin rows o seen).placements.getLast? with
    | none => simp [hend] at hlast
    | some p => simpa [hend] using hlast

theorem rings_eq_zero (h : o.seeds = []) (seen : RelaySet) :
    (ofOrigin rows o seen).tally.rings = 0 := by
  simp [ofOrigin, ofWalk, seedHops, h, walk]

theorem rings_le_spent (rows : List Connection) (o : Origin) (seen : RelaySet) :
    (ofOrigin rows o seen).tally.rings.toNat ≤ 1 + (ofOrigin rows o seen).tally.spent := by
  change (UInt32.ofNat ((walked rows o).getLast?.elim 0 Arrival.level)).toNat ≤ _
  rw [UInt32.toNat_ofNat']
  apply (Nat.mod_le _ _).trans
  cases hlast : (walked rows o).getLast? with
  | none => exact Nat.zero_le _
  | some a => exact level_le_spent (List.mem_of_mem_getLast? hlast) seen

/-- The walk ends with nothing left of a ring, and its tally is what was counted on the way. -/
theorem meterAt_hops (rows : List Connection) (o : Origin) (seen : RelaySet) :
    ∃ rings, meterAt rows o (ofOrigin rows o seen).tally.hops =
        ⟨(ofOrigin rows o seen).tally.hops, (ofOrigin rows o seen).tally.unresolved, rings, 0⟩ ∧
      UInt32.ofNat rings = (ofOrigin rows o seen).tally.rings := by
  have hend := reads_meterAt rows o (walked rows o).length
  rw [stageAt_length_walked] at hend
  obtain ⟨hhops, hunresolved, hrings, ring, next, hwaiting, hleft, -⟩ := hend
  obtain ⟨rfl, -⟩ := List.append_eq_nil_iff.mp hwaiting.symm
  exact ⟨_, Meter.ext hhops hunresolved rfl hleft.symm, congrArg UInt32.ofNat hrings⟩

/-- The walk ends, after one hop for each link and each row walked, the counters balance, as they
are counted on the way, and unless there are rows beyond the width of a level the levels count the
rings. -/
theorem walk_ends_and_balances (rows : List Connection) (o : Origin) (seen : RelaySet) :
    ∃ s, trace rows (some o) seen = .ok s ∧
      (∀ n, (stageAt rows o n).waiting ≠ [] →
        (stageAt rows o (n + 1)).load < (stageAt rows o n).load) ∧
      (∀ n, (stageAt rows o n).waiting = [] ↔ s.tally.hops ≤ n) ∧
      s = ofWalk rows o seen
        ((stageAt rows o s.tally.hops).walked, (stageAt rows o s.tally.hops).pool) ∧
      (∀ n, (meterAt rows o n).Reads (stageAt rows o n)) ∧
      (∃ rings, meterAt rows o s.tally.hops = ⟨s.tally.hops, s.tally.unresolved, rings, 0⟩ ∧
        UInt32.ofNat rings = s.tally.rings) ∧
      s.Balances rows o ∧
      (rows.length + 1 < UInt32.size →
        (∀ n, ∀ a ∈ (stageAt rows o n).walked ++ (stageAt rows o n).waiting,
          a.level < UInt32.size) ∧
        (o.seeds = [] → s.tally.rings = 0) ∧ s.tally.rings.toNat ≤ 1 + s.tally.spent ∧
        s.RingByRing) := by
  refine ⟨ofOrigin rows o seen, rfl, ?_, waiting_stageAt_eq_nil_iff, ?_, reads_meterAt rows o,
    meterAt_hops rows o seen, balances_ofOrigin rows o seen, ?_⟩
  · intro n hwaiting
    rw [stageAt_succ]
    exact Stage.load_step_lt (unfolds_stageAt rows o n) hwaiting
  · have hend := stageAt_length_walked rows o
    change _ = ofWalk rows o seen ((stageAt rows o (walked rows o).length).walked,
      (stageAt rows o (walked rows o).length).pool)
    rw [hend]
    rfl
  · intro hwidth
    have hrows : rows.length < UInt32.size - 1 := by omega
    refine ⟨?_, fun hseeds => rings_eq_zero hseeds seen, rings_le_spent rows o seen,
      ringByRing_ofOrigin hrows seen⟩
    intro n a ha
    exact (level_stageAt_le ha).trans_lt hwidth

theorem walk_ends_and_balances_tangle :
    tangle.length + 1 < UInt32.size ∧
      ∃ s, trace tangle (some tangleOrigin) .empty = .ok s ∧
        s.Balances tangle tangleOrigin ∧ s.RingByRing ∧
        (stageAt tangle tangleOrigin 5).waiting ≠ [] ∧
        (stageAt tangle tangleOrigin 6).load < (stageAt tangle tangleOrigin 5).load ∧
        s.tally.hops = 2 + 4 ∧ s.tally.rings = 3 ∧
        ∃ alone, trace tangle (some (.stub "a" "a")) .empty = .ok alone ∧
          alone.tally.rings = 0 := by
  obtain ⟨s, hs, hload, hwaiting, -, -, -, hbalances, hlevels⟩ :=
    walk_ends_and_balances tangle tangleOrigin .empty
  have heq : ofOrigin tangle tangleOrigin .empty = s := Except.ok.inj hs
  have hhops : s.tally.hops = 2 + 4 := by
    subst heq
    decide +kernel
  have hfifth : (stageAt tangle tangleOrigin 5).waiting ≠ [] := by
    rw [Ne, hwaiting, hhops]
    decide
  have hrings : s.tally.rings = 3 := by
    subst heq
    decide +kernel
  obtain ⟨alone, halone, -, -, -, -, -, -, hstub⟩ :=
    walk_ends_and_balances tangle (.stub "a" "a") .empty
  exact ⟨by decide, s, hs, hbalances, (hlevels (by decide)).2.2.2, hfifth, hload 5 hfifth, hhops,
    hrings, alone, halone, (hstub (by decide)).2.1 (by decide)⟩

end Spread
end VoteTrace
