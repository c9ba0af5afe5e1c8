import VoteTrace.Proofs.Spread.Unfolding

namespace VoteTrace

namespace Placement

/-- What the link of an origin leaves. -/
def ofLink (rows : List Connection) (o : Origin) (seen : RelaySet) (link : Connection) :
    Placement :=
  let relays := HopRelays.ofRows rows o.guid link.peer.guid
  { level := 1
    parent := some o.guid
    node := link.peer.guid
    name := link.peer.name
    relay := relays.peerRelay
    parentRelay := relays.relay.or o.relay
    point := link.peer.point
    parentPoint := o.point.or link.source.point
    seen := relays.peerRelay.any seen.contains }

/-- What a row leaves that is walked from the placed node. -/
def onward (seen : RelaySet) (p : Placement) (row : Connection) : Placement :=
  { level := p.level + 1
    parent := some row.source.guid
    node := row.peer.guid
    name := row.peer.name
    relay := row.peer.relay
    parentRelay := row.source.relay
    point := row.peer.point
    parentPoint := p.point.or row.source.point
    seen := row.peer.relay.any seen.contains }

/-- All that follows from a placement, given those before it. -/
def block (rows : List Connection) (seen : RelaySet) (earlier : List Placement)
    (p : Placement) : List Placement :=
  (onwardRows rows (earlier.map node) p.node).map (p.onward seen)

theorem notMem_and_ne_of_mem_block {rows : List Connection} {seen : RelaySet}
    (earlier : List Placement) (p q : Placement) (h : q ∈ block rows seen earlier p) :
    q ∉ earlier ∧ q ≠ p := by
  obtain ⟨row, hrow, rfl⟩ := List.mem_map.mp h
  constructor
  · intro hmem
    exact (notMem_of_mem_onwardRows hrow).2 (List.mem_map_of_mem hmem)
  · intro heq
    have hlevel : p.level + 1 = p.level := congrArg Placement.level heq
    simp at hlevel

end Placement

namespace Arrival

@[simp] theorem node_place (seen : RelaySet) (a : Arrival) :
    (a.place seen).node = a.node := rfl

theorem place_first (rows : List Connection) (o : Origin) (seen : RelaySet)
    (link : Connection) :
    (Arrival.mk 1 (Hop.seed rows o link)).place seen = Placement.ofLink rows o seen link := rfl

theorem place_onward (seen : RelaySet) (a : Arrival) (row : Connection) :
    (a.onward row).place seen = (a.place seen).onward seen row := by
  simp only [place, onward, Placement.onward, Hop.onward, isSeen, UInt32.ofNat_add]
  rfl

theorem map_place_next (rows : List Connection) (seen : RelaySet) (earlier : List Arrival)
    (a : Arrival) :
    (next rows earlier a).map (place seen) =
      (a.place seen).block rows seen (earlier.map (place seen)) := by
  simp only [next, Placement.block, List.map_map, Function.comp_def, place_onward, node_place]

end Arrival

namespace Spread

/-- The placements off the root. -/
def arrivals (s : Spread) : List Placement :=
  s.placements.filter fun p => !p.isRoot

variable {rows : List Connection} {o : Origin}

theorem placements_ofOrigin (rows : List Connection) (o : Origin) (seen : RelaySet) :
    (ofOrigin rows o seen).placements =
      Placement.ofOrigin o :: (walked rows o).map (Arrival.place seen) := rfl

theorem arrivals_ofOrigin (rows : List Connection) (o : Origin) (seen : RelaySet) :
    (ofOrigin rows o seen).arrivals = (walked rows o).map (Arrival.place seen) := by
  have hroot : (Placement.ofOrigin o).isRoot = true := rfl
  have hplaced : ∀ a : Arrival, (a.place seen).isRoot = false := fun _ => rfl
  simp [arrivals, placements_ofOrigin, hroot, hplaced]

theorem exists_arrivals_iff {seen : RelaySet} {P : Placement → Prop} :
    (∃ p ∈ (ofOrigin rows o seen).arrivals, P p) ↔
      ∃ a ∈ walked rows o, P (a.place seen) := by
  simp [arrivals_ofOrigin]

theorem map_place_firsts (rows : List Connection) (o : Origin) (seen : RelaySet) :
    (firsts rows o).map (Arrival.place seen) = o.seeds.map (Placement.ofLink rows o seen) := by
  simp only [firsts, seedHops, List.map_map, Function.comp_def, Arrival.place_first]

theorem map_place_walked (rows : List Connection) (o : Origin) (seen : RelaySet) :
    (walked rows o).map (Arrival.place seen) =
      o.seeds.map (Placement.ofLink rows o seen) ++
        offspring (Placement.block rows seen) ((walked rows o).map (Arrival.place seen)) := by
  rw [← map_place_firsts]
  exact map_eq_of_eq_offspring (Arrival.place seen) (Arrival.map_place_next rows seen)
    (walked_eq rows o)

theorem toNat_level_place (hrows : rows.length < UInt32.size - 1) {a : Arrival}
    (ha : a ∈ walked rows o) (seen : RelaySet) : (a.place seen).level.toNat = a.level := by
  have hlevel := level_walked_le ha
  apply UInt32.toNat_ofNat_of_lt'
  omega

theorem toNat_level_of_mem_block (hrows : rows.length < UInt32.size - 1) {seen : RelaySet}
    {earlier later : List Placement} {p q : Placement}
    (h : (walked rows o).map (Arrival.place seen) = earlier ++ p :: later)
    (hq : q ∈ p.block rows seen earlier) : q.level.toNat = p.level.toNat + 1 := by
  obtain ⟨before, rest, hwalked, rfl, hrest⟩ := List.map_eq_append_iff.mp h
  obtain ⟨a, behind, rfl, rfl, -⟩ := List.map_eq_cons_iff.mp hrest
  rw [← Arrival.map_place_next] at hq
  obtain ⟨b, hb, rfl⟩ := List.mem_map.mp hq
  obtain ⟨row, hrow, rfl⟩ := Arrival.mem_next.mp hb
  have ha : a ∈ walked rows o := by simp [hwalked]
  rw [toNat_level_place hrows (onward_mem_walked hwalked hrow), toNat_level_place hrows ha,
    Arrival.level_onward]

/-- What is reached over a row is above the first level. -/
theorem level_ne_one_of_mem_offspring (hrows : rows.length < UInt32.size - 1)
    {seen : RelaySet} {q : Placement}
    (hq : q ∈ offspring (Placement.block rows seen)
      ((walked rows o).map (Arrival.place seen))) : q.level ≠ 1 := by
  obtain ⟨earlier, p, later, hsplit, hblock⟩ := mem_offspring.mp hq
  obtain ⟨a, ha, rfl⟩ := List.mem_map.mp (hsplit ▸ List.mem_append_cons_self)
  have hlevel := toNat_level_of_mem_block hrows hsplit hblock
  have hpos := level_walked_pos ha
  rw [toNat_level_place hrows ha] at hlevel
  intro hone
  rw [hone, UInt32.toNat_one] at hlevel
  omega

/-- At the first level there is what the links leave and nothing else. -/
theorem filter_level_one_placements (hrows : rows.length < UInt32.size - 1)
    (seen : RelaySet) :
    (ofOrigin rows o seen).placements.filter (fun p => p.level = 1) =
      o.seeds.map (Placement.ofLink rows o seen) := by
  have hroot : ¬decide ((Placement.ofOrigin o).level = 1) = true := by
    simp [Placement.ofOrigin]
  rw [placements_ofOrigin, List.filter_cons, if_neg hroot, map_place_walked,
    List.filter_append, List.filter_eq_self.mpr, List.filter_eq_nil_iff.mpr, List.append_nil]
  · intro q hq
    simpa using level_ne_one_of_mem_offspring hrows hq
  · intro p hp
    obtain ⟨link, -, rfl⟩ := List.mem_map.mp hp
    rfl

/-- Without links nothing is placed off the root, and no row is spent. -/
theorem ofOrigin_of_seeds_eq_nil (h : o.seeds = []) (seen : RelaySet) :
    ofOrigin rows o seen =
      { placements := [Placement.ofOrigin o]
        tally :=
          { poolSize := rows.length
            hops := 0
            spent := 0
            unresolved := 0
            rings := 0 } } := by
  simp [ofOrigin, ofWalk, seedHops, h, walk, Pool.ofRows, Pool.spentCount]

/-- The placements of a trace are the origin, its links, and the block of each placement off
the root in turn, each block one level above its placement. -/
theorem placements_eq_blocks (rows : List Connection) (o : Origin) (seen : RelaySet)
    (hrows : rows.length < UInt32.size - 1) :
    ∃ s, trace rows (some o) seen = .ok s ∧
      s.placements = Placement.ofOrigin o ::
        (o.seeds.map (Placement.ofLink rows o seen) ++
          offspring (Placement.block rows seen) s.arrivals) ∧
      (∀ earlier p later, s.arrivals = earlier ++ p :: later →
        ∀ q ∈ p.block rows seen earlier, q.level.toNat = p.level.toNat + 1) ∧
      ∀ ps, ps = o.seeds.map (Placement.ofLink rows o seen) ++
        offspring (Placement.block rows seen) ps → ps = s.arrivals := by
  refine ⟨ofOrigin rows o seen, rfl, ?_, ?_, ?_⟩
  · rw [arrivals_ofOrigin, ← map_place_walked, placements_ofOrigin]
  · intro earlier p later h q hq
    rw [arrivals_ofOrigin] at h
    exact toNat_level_of_mem_block hrows h hq
  · intro ps hps
    rw [arrivals_ofOrigin]
    exact eq_of_eq_offspring Placement.notMem_and_ne_of_mem_block hps
      (map_place_walked rows o seen)

/-- Two ways to `d`, one of them reported twice, a way back from it, a row around it and a row
without peer. -/
def tangle : List Connection :=
  [.between "b" "d", .between "c" "d", .between "d" "b", .between "b" "d", .between "d" "d",
    .between "d" ""]

def tangleOrigin : Origin := .withLinks "a" [.between "a" "b", .between "a" "c"]

theorem placements_eq_blocks_tangle :
    tangle.length < UInt32.size - 1 ∧
      ∃ s, trace tangle (some tangleOrigin) .empty = .ok s ∧
        s.placements = Placement.ofOrigin tangleOrigin ::
          (tangleOrigin.seeds.map (Placement.ofLink tangle tangleOrigin .empty) ++
            offspring (Placement.block tangle .empty) s.arrivals) ∧
        s.placements.map (fun p => (p.level, p.node)) =
          [(0, "a"), (1, "b"), (1, "c"), (2, "d"), (2, "d"), (2, "d"), (3, "d")] := by
  obtain ⟨s, hs, hblocks, -⟩ :=
    placements_eq_blocks tangle tangleOrigin .empty (by decide)
  refine ⟨by decide, s, hs, hblocks, ?_⟩
  have heq : ofOrigin tangle tangleOrigin .empty = s := Except.ok.inj hs
  subst heq
  decide +kernel

end Spread
end VoteTrace
