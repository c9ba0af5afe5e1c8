import VoteTrace.Proofs.Spread.Lineage

namespace VoteTrace

namespace Spread

/-- The placements that rows of the node lead to. -/
def children (s : Spread) (guid : String) : List Placement :=
  s.beyondLinks.filter fun p => p.parent == some guid

variable {rows : List Connection} {o : Origin}

theorem parent_of_mem_map_place_next {seen : RelaySet} {earlier : List Arrival} {a : Arrival}
    {p : Placement} (hp : p ∈ (Arrival.next rows earlier a).map (Arrival.place seen)) :
    p.parent = some a.node ∧ a.node ∉ earlier.map Arrival.node := by
  obtain ⟨b, hb, rfl⟩ := List.mem_map.mp hp
  obtain ⟨row, hrow, rfl⟩ := Arrival.mem_next.mp hb
  obtain ⟨-, hsource, -, -⟩ := mem_onwardRows.mp hrow
  exact ⟨congrArg some hsource, (notMem_of_mem_onwardRows hrow).1⟩

/-- A hop to a node that is placed already can come only from a node that was placed no later:
the row is gone once the node has been walked. -/
theorem level_eq_or_eq_succ {earlier later : List Arrival} {a : Arrival}
    (h : walked rows o = earlier ++ a :: later) (hnew : a.node ∉ earlier.map Arrival.node)
    {b : Arrival} (hb : b ∈ walked rows o) (hnode : b.node = a.node) :
    b.level = a.level ∨ b.level = a.level + 1 := by
  have ha : a ∈ walked rows o := by simp [h]
  have hpos := level_walked_pos ha
  have hlower : a.level ≤ b.level :=
    level_le_of_notMem_earlier h hb (by rwa [hnode])
  obtain ⟨front, back, hwalked⟩ := List.append_of_mem hb
  rcases first_or_onward hwalked with hfirst | ⟨before, c, between, rfl, row, hrow, rfl⟩
  · obtain ⟨link, -, rfl⟩ := mem_firsts.mp hfirst
    simp only at hlower ⊢
    omega
  · have hc : walked rows o = before ++ c :: (between ++ c.onward row :: back) := by
      simp [hwalked]
    have hpeer := (notMem_of_mem_onwardRows hrow).2
    rw [Arrival.node_onward] at hnode
    rw [hnode] at hpeer
    have hparent : c.level ≤ a.level := level_le_of_notMem_earlier hc ha hpeer
    simp only [Arrival.level_onward] at hlower ⊢
    omega

theorem children_ofOrigin (hrows : rows.length < UInt32.size - 1)
    {earlier later : List Arrival} {a : Arrival} (h : walked rows o = earlier ++ a :: later)
    (hnew : a.node ∉ earlier.map Arrival.node) (seen : RelaySet) :
    (ofOrigin rows o seen).children a.node =
      (Arrival.next rows earlier a).map (Arrival.place seen) := by
  rw [children, beyondLinks_ofOrigin hrows, map_offspring, h, offspring_append_cons,
    List.filter_append, List.filter_append]
  -- Of the earlier arrivals none is at the node, and behind `a` no row of the node is left.
  have hbefore : ∀ p ∈ offspring
      (fun before c => (Arrival.next rows before c).map (Arrival.place seen)) earlier,
      ¬(p.parent == some a.node) = true := by
    intro p hp heq
    obtain ⟨before, c, between, rfl, hc⟩ := mem_offspring.mp hp
    have hcnode : c.node = a.node := by simpa [(parent_of_mem_map_place_next hc).1] using heq
    exact hnew (by simp [← hcnode])
  have hbehind : ∀ p ∈ offspring
      (fun between c => (Arrival.next rows (earlier ++ a :: between) c).map
        (Arrival.place seen)) later, ¬(p.parent == some a.node) = true := by
    intro p hp heq
    obtain ⟨between, c, behind, rfl, hc⟩ := mem_offspring.mp hp
    obtain ⟨hparent, hspent⟩ := parent_of_mem_map_place_next hc
    have hcnode : c.node = a.node := by simpa [hparent] using heq
    exact hspent (by simp [hcnode])
  have hown : ∀ p ∈ (Arrival.next rows earlier a).map (Arrival.place seen),
      (p.parent == some a.node) = true := by
    intro p hp
    simp [(parent_of_mem_map_place_next hp).1]
  rw [List.filter_eq_nil_iff.mpr hbefore, List.filter_eq_nil_iff.mpr hbehind,
    List.filter_eq_self.mpr hown, List.nil_append, List.append_nil]

theorem map_place_next_isInfix {earlier later : List Arrival} {a : Arrival}
    (h : walked rows o = earlier ++ a :: later) (seen : RelaySet) :
    (Arrival.next rows earlier a).map (Arrival.place seen) <:+:
      (ofOrigin rows o seen).placements := by
  have hblock : Arrival.next rows earlier a <:+: walked rows o := by
    conv_rhs => rw [walked_eq, h, offspring_append_cons]
    exact ⟨firsts rows o ++ offspring (Arrival.next rows) earlier,
      offspring (fun between => Arrival.next rows (earlier ++ a :: between)) later, by simp⟩
  rw [placements_ofOrigin]
  exact (hblock.map (Arrival.place seen)).trans (List.suffix_cons _ _).isInfix

/-- The placements of a node lie in two adjacent rings at most, and its children follow from the
first of them: in one piece, a level deeper, the latest row first. -/
theorem rings_and_children_of_first (rows : List Connection) (o : Origin) (seen : RelaySet)
    (hrows : rows.length < UInt32.size - 1) :
    ∃ s, trace rows (some o) seen = .ok s ∧
      ∀ guid, (∃ p ∈ s.arrivals, p.node = guid) →
        ∃ q, s.placements[s.first guid]? = some q ∧ q.isRoot = false ∧ q.node = guid ∧
          (∀ p ∈ s.arrivals, p.node = guid →
            p.level.toNat = q.level.toNat ∨ p.level.toNat = q.level.toNat + 1) ∧
          (∀ p ∈ s.children guid, p.level.toNat = q.level.toNat + 1) ∧
          s.children guid <:+: s.placements ∧
          ∃ pairs : List (Placement × Nat), pairs.map Prod.fst = s.children guid ∧
            (pairs.map Prod.snd).Pairwise (· > ·) ∧
            ∀ p j, (p, j) ∈ pairs → ∃ row, rows[j]? = some row ∧ p = q.onward seen row := by
  refine ⟨ofOrigin rows o seen, rfl, ?_⟩
  intro guid hplaced
  obtain ⟨earlier, a, later, hwalked, rfl, hnew⟩ := exists_first_at (exists_arrivals_iff.mp hplaced)
  have ha : a ∈ walked rows o := by simp [hwalked]
  have hchildren := children_ofOrigin hrows hwalked hnew seen
  refine ⟨a.place seen, ?_, rfl, rfl, ?_, ?_, ?_, ?_⟩
  · rw [first_eq hwalked hnew]
    exact getElem?_placements_of_walked hwalked seen
  · intro p hp hnode
    rw [arrivals_ofOrigin] at hp
    obtain ⟨b, hb, rfl⟩ := List.mem_map.mp hp
    rw [toNat_level_place hrows hb, toNat_level_place hrows ha]
    exact level_eq_or_eq_succ hwalked hnew hb hnode
  · intro p hp
    rw [hchildren] at hp
    obtain ⟨b, hb, rfl⟩ := List.mem_map.mp hp
    obtain ⟨row, hrow, rfl⟩ := Arrival.mem_next.mp hb
    rw [toNat_level_place hrows (onward_mem_walked hwalked hrow), toNat_level_place hrows ha,
      Arrival.level_onward]
  · rw [hchildren]
    exact map_place_next_isInfix hwalked seen
  · refine ⟨(onwardPairs rows (earlier.map Arrival.node) a.node).map fun x =>
      ((a.onward x.1).place seen, x.2), ?_, ?_, ?_⟩
    · rw [hchildren, Arrival.next, ← map_fst_onwardPairs]
      simp only [List.map_map]
      rfl
    · rw [List.map_map]
      exact pairwise_gt_map_snd_onwardPairs rows _ _
    · intro p j hpair
      obtain ⟨⟨row, _⟩, hrow, heq⟩ := List.mem_map.mp hpair
      obtain ⟨rfl, rfl⟩ := Prod.mk.inj heq
      exact ⟨row, (mem_onwardPairs.mp hrow).1, Arrival.place_onward seen a row⟩

theorem rings_and_children_of_first_tangle :
    tangle.length < UInt32.size - 1 ∧
      ∃ s, trace tangle (some tangleOrigin) .empty = .ok s ∧
        (∃ p ∈ s.arrivals, p.node = "d") ∧
        (∃ q, s.placements[s.first "d"]? = some q ∧
          (∀ p ∈ s.arrivals, p.node = "d" →
            p.level.toNat = q.level.toNat ∨ p.level.toNat = q.level.toNat + 1) ∧
          s.children "d" <:+: s.placements) ∧
        (s.arrivals.filter (·.node == "d")).map Placement.level = [2, 2, 2, 3] ∧
        (s.children "d").map Placement.level = [3] := by
  obtain ⟨s, hs, hfirst⟩ :=
    rings_and_children_of_first tangle tangleOrigin .empty (by decide)
  have heq : ofOrigin tangle tangleOrigin .empty = s := Except.ok.inj hs
  have hplaced : ∃ p ∈ s.arrivals, p.node = "d" := by
    subst heq
    decide +kernel
  obtain ⟨q, hq, -, -, hlevel, -, hblock, -⟩ := hfirst "d" hplaced
  refine ⟨by decide, s, hs, hplaced, ⟨q, hq, hlevel, hblock⟩, ?_, ?_⟩
  · subst heq
    decide +kernel
  · subst heq
    decide +kernel

end Spread
end VoteTrace
