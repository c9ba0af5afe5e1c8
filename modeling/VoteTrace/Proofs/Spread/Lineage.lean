import Mathlib.Logic.Function.Basic
import VoteTrace.Proofs.Spread.Crossings

namespace VoteTrace

namespace Spread

/-- Positions from the root outwards, one for each level, each placement the parent of the
next and, between the root and the last, the first of its node. -/
structure Lineage (s : Spread) (pos : Nat → Nat) (level : Nat) : Prop where
  root : pos 0 = 0
  lt : ∀ k < level, pos k < pos (k + 1)
  level_eq : ∀ k ≤ level, ∃ p, s.placements[pos k]? = some p ∧ p.level.toNat = k
  parent_eq : ∀ k < level, ∀ p q, s.placements[pos k]? = some p →
    s.placements[pos (k + 1)]? = some q → q.parent = some p.node
  first_eq : ∀ k, 0 < k → k < level → ∀ p, s.placements[pos k]? = some p →
    s.first p.node = pos k

namespace Lineage

variable {s : Spread} {pos : Nat → Nat} {level : Nat}

theorem lt_of_lt (h : s.Lineage pos level) {k m : Nat} (hkm : k < m) (hm : m ≤ level) :
    pos k < pos m := by
  induction m with
  | zero => omega
  | succ m ih =>
      have hstep := h.lt m (by omega)
      rcases Nat.lt_succ_iff_lt_or_eq.mp hkm with hlt | rfl
      · exact Nat.lt_trans (ih hlt (by omega)) hstep
      · exact hstep

theorem node_ne (h : s.Lineage pos level) {k m : Nat} (hk : 0 < k) (hkm : k < m)
    (hm : m < level) {p q : Placement} (hp : s.placements[pos k]? = some p)
    (hq : s.placements[pos m]? = some q) : p.node ≠ q.node := by
  intro heq
  have hfirst := h.first_eq k hk (by omega) p hp
  have hfirst' := h.first_eq m (by omega) hm q hq
  have hlt := h.lt_of_lt hkm (by omega)
  rw [heq] at hfirst
  omega

theorem extend (h : s.Lineage pos level) {i : Nat} {p q : Placement}
    (hp : s.placements[pos level]? = some p) (hq : s.placements[i]? = some q)
    (hlt : pos level < i) (hlevel : q.level.toNat = level + 1)
    (hparent : q.parent = some p.node)
    (hfirst : 0 < level → s.first p.node = pos level) :
    s.Lineage (Function.update pos (level + 1) i) (level + 1) := by
  have hnew : Function.update pos (level + 1) i (level + 1) = i := Function.update_self ..
  have hold : ∀ k ≤ level, Function.update pos (level + 1) i k = pos k :=
    fun k hk => Function.update_of_ne (by omega) ..
  refine ⟨?_, ?_, ?_, ?_, ?_⟩
  · rw [hold 0 (Nat.zero_le level), h.root]
  · intro k hk
    rcases Nat.lt_succ_iff_lt_or_eq.mp hk with hk | rfl
    · rw [hold k (by omega), hold (k + 1) hk]
      exact h.lt k hk
    · rwa [hnew, hold k (Nat.le_refl k)]
  · intro k hk
    rcases Nat.le_succ_iff.mp hk with hk | rfl
    · rw [hold k hk]
      exact h.level_eq k hk
    · exact ⟨q, by rwa [hnew], hlevel⟩
  · intro k hk p' q' hp' hq'
    rcases Nat.lt_succ_iff_lt_or_eq.mp hk with hk | rfl
    · rw [hold k (by omega)] at hp'
      rw [hold (k + 1) hk] at hq'
      exact h.parent_eq k hk p' q' hp' hq'
    · rw [hold k (Nat.le_refl k), hp] at hp'
      rw [hnew, hq] at hq'
      cases hp'
      cases hq'
      exact hparent
  · intro k hpos hk p' hp'
    rw [hold k (by omega)] at hp' ⊢
    rcases Nat.lt_succ_iff_lt_or_eq.mp hk with hk | rfl
    · exact h.first_eq k hpos hk p' hp'
    · rw [hp] at hp'
      cases hp'
      exact hfirst hpos

end Lineage

variable {rows : List Connection} {o : Origin}

theorem getElem?_placements_of_walked {earlier later : List Arrival} {a : Arrival}
    (h : walked rows o = earlier ++ a :: later) (seen : RelaySet) :
    (ofOrigin rows o seen).placements[earlier.length + 1]? = some (a.place seen) := by
  rw [placements_ofOrigin, h, List.getElem?_cons_succ]
  simp

theorem exists_walked_of_getElem?_placements {seen : RelaySet} {i : Nat} {p : Placement}
    (h : (ofOrigin rows o seen).placements[i + 1]? = some p) :
    ∃ earlier a later, walked rows o = earlier ++ a :: later ∧ earlier.length = i ∧
      p = a.place seen := by
  rw [placements_ofOrigin, List.getElem?_cons_succ, List.getElem?_map,
    Option.map_eq_some_iff] at h
  obtain ⟨a, ha, rfl⟩ := h
  obtain ⟨hi, -⟩ := List.getElem?_eq_some_iff.mp ha
  refine ⟨(walked rows o).take i, a, _, eq_append_cons_of_getElem? ha, ?_, rfl⟩
  rw [List.length_take]
  omega

/-- A placement off the root follows from one before it: the root, or the first placement of
the source of a row. -/
theorem exists_parent (hrows : rows.length < UInt32.size - 1) {seen : RelaySet} {i : Nat}
    {p : Placement} (hp : (ofOrigin rows o seen).placements[i]? = some p)
    (hlevel : p.level.toNat ≠ 0) :
    ∃ j q, j < i ∧ (ofOrigin rows o seen).placements[j]? = some q ∧
      p.level.toNat = q.level.toNat + 1 ∧ p.parent = some q.node ∧
      (0 < q.level.toNat → (ofOrigin rows o seen).first q.node = j ∧
        ∃ row ∈ rows, (ofOrigin rows o seen).Crosses row ∧ p.IsOver row) := by
  cases i with
  | zero =>
      rw [placements_ofOrigin, List.getElem?_cons_zero] at hp
      cases hp
      exact absurd rfl hlevel
  | succ i =>
      obtain ⟨earlier, a, later, hwalked, rfl, rfl⟩ := exists_walked_of_getElem?_placements hp
      have ha : a ∈ walked rows o := by simp [hwalked]
      rcases first_or_onward hwalked with hfirst | ⟨before, b, between, rfl, row, hrow, rfl⟩
      · obtain ⟨link, -, rfl⟩ := mem_firsts.mp hfirst
        refine ⟨0, Placement.ofOrigin o, Nat.succ_pos _, rfl, ?_, rfl, ?_⟩
        · exact toNat_level_place hrows ha seen
        · intro hpos
          exact absurd hpos (Nat.lt_irrefl 0)
      · obtain ⟨hmem, hsource, hpeer, hspent⟩ := mem_onwardRows.mp hrow
        have hb : walked rows o = before ++ b :: (between ++ b.onward row :: later) := by
          simp [hwalked]
        have hbmem : b ∈ walked rows o := by simp [hb]
        have hnew : b.node ∉ before.map Arrival.node := (notMem_of_mem_onwardRows hrow).1
        refine ⟨before.length + 1, b.place seen, ?_, getElem?_placements_of_walked hb seen,
          ?_, ?_, fun _ => ⟨first_eq hb hnew seen, row, hmem, ?_, ?_⟩⟩
        · simp only [List.length_append, List.length_cons]
          omega
        · rw [toNat_level_place hrows ha, toNat_level_place hrows hbmem, Arrival.level_onward]
        · rw [Arrival.node_place, ← hsource]
          rfl
        · exact crosses_iff.mpr ⟨hpeer, before, b, _, hb, hsource, hspent⟩
        · exact ⟨rfl, rfl, rfl, rfl, rfl, rfl⟩

/-- The way back from each placement. -/
theorem exists_lineage (hrows : rows.length < UInt32.size - 1) {seen : RelaySet} {level i : Nat}
    {p : Placement} (hp : (ofOrigin rows o seen).placements[i]? = some p)
    (hlevel : p.level.toNat = level) :
    ∃ pos, (ofOrigin rows o seen).Lineage pos level ∧ pos level = i := by
  induction level generalizing i p with
  | zero =>
      refine ⟨fun _ => 0, ⟨rfl, ?_, ?_, ?_, ?_⟩, ?_⟩
      · omega
      · intro k hk
        exact ⟨Placement.ofOrigin o, rfl, (Nat.le_zero.mp hk).symm⟩
      · omega
      · omega
      · rcases i with _ | i
        · rfl
        · obtain ⟨earlier, a, later, hwalked, -, rfl⟩ := exists_walked_of_getElem?_placements hp
          have ha : a ∈ walked rows o := by simp [hwalked]
          have hpos := level_walked_pos ha
          rw [toNat_level_place hrows ha] at hlevel
          omega
  | succ level ih =>
      obtain ⟨j, q, hlt, hq, hplevel, hparent, hfirst⟩ := exists_parent hrows hp (by omega)
      have hqlevel : q.level.toNat = level := by omega
      obtain ⟨pos, hlineage, rfl⟩ := ih hq hqlevel
      refine ⟨Function.update pos (level + 1) i, ?_, Function.update_self ..⟩
      exact hlineage.extend hq hp hlt hlevel hparent fun hpos => (hfirst (hqlevel ▸ hpos)).1

/-- If an earlier node of the way came back at its end, the row to the end would have touched
it and been gone before the last parent was walked. -/
theorem parent_eq_node_of_lineage (hrows : rows.length < UInt32.size - 1) {seen : RelaySet}
    {pos : Nat → Nat} {p q : Placement} {k : Nat}
    (h : (ofOrigin rows o seen).Lineage pos p.level.toNat)
    (hp : (ofOrigin rows o seen).placements[pos p.level.toNat]? = some p)
    (hpos : 0 < k) (hk : k < p.level.toNat)
    (hq : (ofOrigin rows o seen).placements[pos k]? = some q) (hnode : q.node = p.node) :
    p.parent = some p.node ∧
      ∃ row ∈ rows, row.source.guid = p.node ∧ row.peer.guid = p.node := by
  obtain ⟨level, hlevel⟩ : ∃ level, p.level.toNat = level + 1 := ⟨p.level.toNat - 1, by omega⟩
  obtain ⟨_, parent, -, -, hparentLevel, hparent, hfirst⟩ := exists_parent hrows hp (by omega)
  obtain ⟨-, row, hrow, hcrosses, hover⟩ := hfirst (by omega)
  have hsource : row.source.guid = parent.node :=
    Option.some.inj (hover.parent_eq.symm.trans hparent)
  rw [hlevel] at h hp hk
  obtain ⟨r, hr, -⟩ := h.level_eq level (Nat.le_succ level)
  have hrparent := h.parent_eq level (Nat.lt_succ_self level) r p hr hp
  have hrnode : parent.node = r.node := Option.some.inj (hparent.symm.trans hrparent)
  rcases Nat.lt_succ_iff_lt_or_eq.mp hk with hklt | rfl
  -- Below the parent: the node was placed before the parent, so no row crosses to it.
  · have hfirstq := h.first_eq k hpos hk q hq
    have hfirstr := h.first_eq level (by omega) (Nat.lt_succ_self level) r hr
    have hlt := h.lt_of_lt hklt (Nat.le_succ level)
    have hle := hcrosses.first_le
    rw [hsource, hrnode, ← hover.node_eq, ← hnode] at hle
    omega
  · rw [hq] at hr
    cases hr
    rw [hnode] at hrparent hrnode
    exact ⟨hrparent, row, hrow, hsource.trans hrnode, hover.node_eq.symm⟩

/-- Every placement has a way back to the root over first placements, which meets no node
twice, unless its last step is a row around a node. -/
theorem lineage_of_placement (rows : List Connection) (o : Origin) (seen : RelaySet)
    (hrows : rows.length < UInt32.size - 1) :
    ∃ s, trace rows (some o) seen = .ok s ∧
      ∀ i p, s.placements[i]? = some p →
        ∃ pos, s.Lineage pos p.level.toNat ∧ pos p.level.toNat = i ∧
          (∀ k m q r, 0 < k → k < m → m < p.level.toNat → s.placements[pos k]? = some q →
            s.placements[pos m]? = some r → q.node ≠ r.node) ∧
          ∀ k q, 0 < k → k < p.level.toNat → s.placements[pos k]? = some q →
            q.node = p.node → p.parent = some p.node ∧
              ∃ row ∈ rows, row.source.guid = p.node ∧ row.peer.guid = p.node := by
  refine ⟨ofOrigin rows o seen, rfl, ?_⟩
  intro i p hp
  obtain ⟨pos, hlineage, rfl⟩ := exists_lineage hrows hp rfl
  refine ⟨pos, hlineage, rfl, ?_, ?_⟩
  · intro k m q r hk hkm hm hq hr
    exact hlineage.node_ne hk hkm hm hq hr
  · intro k q hpos hk hq hnode
    exact parent_eq_node_of_lineage hrows hlineage hp hpos hk hq hnode

theorem lineage_of_placement_tangle :
    tangle.length < UInt32.size - 1 ∧
      ∃ s, trace tangle (some tangleOrigin) .empty = .ok s ∧
        ∃ p pos, s.placements[6]? = some p ∧ p.node = "d" ∧ p.parent = some "d" ∧
          s.Lineage pos 3 ∧ pos 3 = 6 ∧ pos 2 = s.first "d" := by
  obtain ⟨s, hs, hlineage⟩ := lineage_of_placement tangle tangleOrigin .empty (by decide)
  have heq : ofOrigin tangle tangleOrigin .empty = s := Except.ok.inj hs
  have hlast : (s.placements[6]?).map (fun p => (p.level, p.node, p.parent)) =
      some (3, "d", some "d") := by
    subst heq
    decide +kernel
  obtain ⟨p, hp, hfields⟩ := Option.map_eq_some_iff.mp hlast
  simp only [Prod.mk.injEq] at hfields
  obtain ⟨hlevel, hnode, hparent⟩ := hfields
  have hlevel : p.level.toNat = 3 := congrArg UInt32.toNat hlevel
  obtain ⟨pos, hway, hend, -⟩ := hlineage 6 p hp
  rw [hlevel] at hway hend
  obtain ⟨q, hq, -⟩ := hway.level_eq 2 (by decide)
  have hqnode : some q.node = some "d" :=
    (hway.parent_eq 2 (by decide) q p hq (hend ▸ hp)).symm.trans hparent
  have hfirst := hway.first_eq 2 (by decide) (by decide) q hq
  rw [Option.some.inj hqnode] at hfirst
  exact ⟨by decide, s, hs, p, pos, hp, hnode, hparent, hway, hend, hfirst.symm⟩

end Spread
end VoteTrace
