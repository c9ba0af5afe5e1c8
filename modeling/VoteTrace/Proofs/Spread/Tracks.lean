import VoteTrace.Proofs.Spread.Lineage

namespace VoteTrace

namespace Spread

/-- The links and rows over which the placements off the root were reached, in their order. -/
def tracks (rows : List Connection) (o : Origin) (s : Spread) : List Connection :=
  o.seeds ++ offspring
    (fun earlier p => onwardRows rows (earlier.map Placement.node) p.node) s.arrivals

/-- The placement from which a placement off the root was reached. -/
def cameFrom? (s : Spread) (p : Placement) : Option Placement :=
  if p.level = 1 then s.root?
  else p.parent.bind fun guid => s.placements[s.first guid]?

/-- What follows from the origin over a link is of the first level; all else follows over a row. -/
structure Follows (rows : List Connection) (o : Origin) (seen : RelaySet) (p q : Placement)
    (row : Connection) : Prop where
  ofLink_eq : p.level = 1 → q = Placement.ofOrigin o ∧ p = Placement.ofLink rows o seen row
  onward_eq : p.level ≠ 1 → p = q.onward seen row

variable {rows : List Connection} {o : Origin} {seen : RelaySet}

theorem Follows.parentPoint_eq {p q : Placement} {row : Connection}
    (h : Follows rows o seen p q row) : p.parentPoint = q.point.or row.source.point := by
  by_cases hlevel : p.level = 1
  · obtain ⟨rfl, rfl⟩ := h.ofLink_eq hlevel
    rfl
  · rw [h.onward_eq hlevel]
    rfl

theorem tracks_ofOrigin (rows : List Connection) (o : Origin) (seen : RelaySet) :
    tracks rows o (ofOrigin rows o seen) =
      o.seeds ++ offspring
        (fun earlier a => onwardRows rows (earlier.map Arrival.node) a.node) (walked rows o) := by
  rw [tracks, arrivals_ofOrigin, offspring_map]
  simp only [List.map_map, Function.comp_def, Arrival.node_place]

theorem exists_track_of_lt {i : Nat} {a : Arrival} (ha : (walked rows o)[i]? = some a)
    (hi : i < o.seeds.length) (seen : RelaySet) :
    ∃ link, (tracks rows o (ofOrigin rows o seen))[i]? = some link ∧
      a = ⟨1, Hop.seed rows o link⟩ := by
  have hfirsts : firsts rows o = o.seeds.map fun link => ⟨1, Hop.seed rows o link⟩ := by
    rw [firsts, seedHops, List.map_map]
    rfl
  rw [walked_eq, List.getElem?_append_left (by simpa [hfirsts] using hi), hfirsts,
    List.getElem?_map, Option.map_eq_some_iff] at ha
  obtain ⟨link, hlink, rfl⟩ := ha
  exact ⟨link, by rw [tracks_ofOrigin, List.getElem?_append_left hi, hlink], rfl⟩

theorem exists_track_of_le {i : Nat} {a : Arrival} (ha : (walked rows o)[i]? = some a)
    (hi : o.seeds.length ≤ i) (seen : RelaySet) :
    ∃ earlier b later row, walked rows o = earlier ++ b :: later ∧
      row ∈ onwardRows rows (earlier.map Arrival.node) b.node ∧
      (tracks rows o (ofOrigin rows o seen))[i]? = some row ∧ a = b.onward row := by
  have hlength : (firsts rows o).length = o.seeds.length := by simp [firsts, seedHops]
  rw [walked_eq, List.getElem?_append_right (hlength ▸ hi), hlength] at ha
  obtain ⟨earlier, b, later, row, hwalked, hrow, hget, rfl⟩ :=
    exists_of_getElem?_offspring_map
      (fun earlier a => onwardRows rows (earlier.map Arrival.node) a.node) Arrival.onward ha
  exact ⟨earlier, b, later, row, hwalked, hrow,
    by rw [tracks_ofOrigin, List.getElem?_append_right hi, hget], rfl⟩

/-- Where a placement off the root comes from. -/
theorem exists_track (hrows : rows.length < UInt32.size - 1) {i : Nat} {p : Placement}
    (hp : (ofOrigin rows o seen).placements[i + 1]? = some p) :
    ∃ j q row, j ≤ i ∧ (ofOrigin rows o seen).placements[j]? = some q ∧
      (ofOrigin rows o seen).cameFrom? p = some q ∧
      (tracks rows o (ofOrigin rows o seen))[i]? = some row ∧ Follows rows o seen p q row := by
  obtain ⟨earlier, a, later, hwalked, rfl, rfl⟩ := exists_walked_of_getElem?_placements hp
  have ha : (walked rows o)[earlier.length]? = some a := by simp [hwalked]
  have hlevel := toNat_level_place hrows (List.mem_of_getElem? ha) seen
  rcases Nat.lt_or_ge earlier.length o.seeds.length with hi | hi
  · obtain ⟨link, hlink, rfl⟩ := exists_track_of_lt ha hi seen
    exact ⟨0, Placement.ofOrigin o, link, Nat.zero_le _, rfl, rfl, hlink,
      fun _ => ⟨rfl, rfl⟩, fun hne => absurd rfl hne⟩
  · obtain ⟨before, b, behind, row, hb, hrow, htrack, rfl⟩ :=
      exists_track_of_le ha hi seen
    have hbmem : b ∈ walked rows o := by simp [hb]
    have hpos := level_walked_pos hbmem
    rw [Arrival.level_onward] at hlevel
    have hne : ((b.onward row).place seen).level ≠ 1 := by
      intro hone
      rw [hone, UInt32.toNat_one] at hlevel
      omega
    -- What the row starts from is first placed where `b` is, and has a place before the row's own.
    obtain ⟨j, q, hlt, hq, hqlevel, hparent, hfirst⟩ := exists_parent hrows hp (by omega)
    obtain ⟨hj, -⟩ := hfirst (by omega)
    have hsource : q.node = b.node :=
      (Option.some.inj hparent).symm.trans (mem_onwardRows.mp hrow).2.1
    have hplace := getElem?_placements_of_walked hb seen
    rw [← first_eq hb (notMem_of_mem_onwardRows hrow).1 seen, ← hsource, hj, hq] at hplace
    cases hplace
    refine ⟨j, b.place seen, row, by omega, hq, ?_, htrack, fun hone => absurd hone hne,
      fun _ => Arrival.place_onward seen b row⟩
    rw [cameFrom?, if_neg hne, hparent, Option.bind_some, hj, hq]

end Spread
end VoteTrace
