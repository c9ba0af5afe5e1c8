import Mathlib.Data.List.Nodup
import VoteTrace.Proofs.Spread.Blocks

namespace VoteTrace

/-- The placement carries what the row tells of its two sides. -/
structure Placement.IsOver (p : Placement) (row : Connection) : Prop where
  parent_eq : p.parent = some row.source.guid
  node_eq : p.node = row.peer.guid
  name_eq : p.name = row.peer.name
  relay_eq : p.relay = row.peer.relay
  parentRelay_eq : p.parentRelay = row.source.relay
  point_eq : p.point = row.peer.point

namespace Spread

/-- Where a node is first placed off the root; beyond the output if it is not. -/
def first (s : Spread) (guid : String) : Nat :=
  s.placements.findIdx fun p => !p.isRoot && p.node == guid

/-- The placements behind those of the origin's links. -/
def beyondLinks (s : Spread) : List Placement :=
  s.placements.filter fun p => 2 ≤ p.level.toNat

/-- Told from the output, which rows the walk takes: just these have a place among the
crossings, by `mem_map_snd_crossings`. -/
structure Crosses (s : Spread) (row : Connection) : Prop where
  hasPeer : row.hasPeer = true
  placed : ∃ p ∈ s.arrivals, p.node = row.source.guid
  first_le : s.first row.source.guid ≤ s.first row.peer.guid

instance (s : Spread) (row : Connection) : Decidable (s.Crosses row) :=
  decidable_of_iff (row.hasPeer = true ∧ (∃ p ∈ s.arrivals, p.node = row.source.guid) ∧
      s.first row.source.guid ≤ s.first row.peer.guid)
    ⟨fun h => ⟨h.1, h.2.1, h.2.2⟩, fun h => ⟨h.hasPeer, h.placed, h.first_le⟩⟩

theorem Crosses.congr {s : Spread} {row row' : Connection} (h : s.Crosses row)
    (hsource : row'.source.guid = row.source.guid) (hpeer : row'.peer.guid = row.peer.guid) :
    s.Crosses row' := by
  obtain ⟨hasPeer, placed, first_le⟩ := h
  refine ⟨?_, ?_, ?_⟩
  · rwa [Connection.hasPeer, hpeer]
  · rwa [hsource]
  · rwa [hsource, hpeer]

variable {rows : List Connection} {o : Origin}

theorem lt_first_iff {earlier later : List Arrival} (h : walked rows o = earlier ++ later)
    (seen : RelaySet) (guid : String) :
    earlier.length < (ofOrigin rows o seen).first guid ↔ guid ∉ earlier.map Arrival.node := by
  have hplacements : (ofOrigin rows o seen).placements =
      (Placement.ofOrigin o :: earlier.map (Arrival.place seen)) ++
        later.map (Arrival.place seen) := by
    simp [placements_ofOrigin, h]
  have hmem : (∃ p ∈ Placement.ofOrigin o :: earlier.map (Arrival.place seen),
      (!p.isRoot && p.node == guid) = true) ↔ guid ∈ earlier.map Arrival.node := by
    have hroot : (Placement.ofOrigin o).isRoot = true := rfl
    have hplaced : ∀ a : Arrival, (a.place seen).isRoot = false := fun _ => rfl
    simp [hroot, hplaced]
  rw [first, hplacements, List.findIdx_append, ← hmem, ← List.findIdx_lt_length]
  split
  · rename_i hlt
    simp only [List.length_cons, List.length_map] at hlt ⊢
    omega
  · rename_i hlt
    simp only [List.length_cons, List.length_map] at hlt ⊢
    omega

theorem succ_lt_first_iff {earlier later : List Arrival} {a : Arrival}
    (h : walked rows o = earlier ++ a :: later) (seen : RelaySet) (guid : String) :
    earlier.length + 1 < (ofOrigin rows o seen).first guid ↔
      guid ∉ earlier.map Arrival.node ∧ guid ≠ a.node := by
  have hsplit : walked rows o = (earlier ++ [a]) ++ later := by simp [h]
  have hlt := lt_first_iff hsplit seen guid
  rw [List.length_append, List.length_singleton] at hlt
  rw [hlt, List.map_append, List.map_singleton, List.mem_append, List.mem_singleton, not_or]

theorem first_eq {earlier later : List Arrival} {a : Arrival}
    (h : walked rows o = earlier ++ a :: later) (hnew : a.node ∉ earlier.map Arrival.node)
    (seen : RelaySet) : (ofOrigin rows o seen).first a.node = earlier.length + 1 := by
  have hlower := (lt_first_iff h seen a.node).mpr hnew
  have hupper : ¬earlier.length + 1 < (ofOrigin rows o seen).first a.node := by
    rw [succ_lt_first_iff h]
    exact fun hne => hne.2 rfl
  omega

/-- A row from a node is left when the node is first walked, unless its peer came first. -/
theorem touchesAny_eq_false_iff_first_le {earlier later : List Arrival} {a : Arrival}
    (h : walked rows o = earlier ++ a :: later) (hnew : a.node ∉ earlier.map Arrival.node)
    {row : Connection} (hsource : row.source.guid = a.node) (seen : RelaySet) :
    row.touchesAny (earlier.map Arrival.node) = false ↔
      (ofOrigin rows o seen).first row.source.guid ≤
        (ofOrigin rows o seen).first row.peer.guid := by
  rw [Connection.touchesAny_eq_false_iff, hsource, first_eq h hnew, Nat.succ_le_iff,
    lt_first_iff h]
  exact and_iff_right hnew

theorem crosses_iff {seen : RelaySet} {row : Connection} :
    (ofOrigin rows o seen).Crosses row ↔
      row.hasPeer = true ∧ ∃ earlier a later, walked rows o = earlier ++ a :: later ∧
        row.source.guid = a.node ∧ row.touchesAny (earlier.map Arrival.node) = false := by
  constructor
  · rintro ⟨hpeer, hplaced, hfirst⟩
    obtain ⟨earlier, a, later, hwalked, hnode, hnew⟩ :=
      exists_first_at (exists_arrivals_iff.mp hplaced)
    rw [← hnode] at hnew
    exact ⟨hpeer, earlier, a, later, hwalked, hnode.symm,
      (touchesAny_eq_false_iff_first_le hwalked hnew hnode.symm seen).mpr hfirst⟩
  · rintro ⟨hpeer, earlier, a, later, hwalked, hsource, hspent⟩
    have hnew : a.node ∉ earlier.map Arrival.node :=
      hsource ▸ (Connection.touchesAny_eq_false_iff.mp hspent).1
    refine ⟨hpeer, exists_arrivals_iff.mpr ⟨a, by simp [hwalked], hsource.symm⟩, ?_⟩
    exact (touchesAny_eq_false_iff_first_le hwalked hnew hsource seen).mp hspent

theorem eq_of_first_eq {seen : RelaySet} {guid other : String}
    (hplaced : ∃ p ∈ (ofOrigin rows o seen).arrivals, p.node = guid)
    (h : (ofOrigin rows o seen).first guid = (ofOrigin rows o seen).first other) :
    other = guid := by
  obtain ⟨earlier, a, later, hwalked, rfl, hnew⟩ :=
    exists_first_at (exists_arrivals_iff.mp hplaced)
  rw [first_eq hwalked hnew] at h
  have hother : other ∉ earlier.map Arrival.node :=
    (lt_first_iff hwalked seen other).mp (by omega)
  by_contra hne
  have hlt := (succ_lt_first_iff hwalked seen other).mpr ⟨hother, hne⟩
  omega

end Spread

/-- The rows over which a walk goes on, with their places in the pool. -/
def onwardPairs (rows : List Connection) (spent : List String) (guid : String) :
    List (Connection × Nat) :=
  (rows.zipIdx.filter fun x =>
    x.1.source.guid == guid && x.1.hasPeer && !x.1.touchesAny spent).reverse

theorem map_fst_onwardPairs (rows : List Connection) (spent : List String) (guid : String) :
    (onwardPairs rows spent guid).map Prod.fst = onwardRows rows spent guid := by
  have hrows := List.zipIdx_map_fst 0 rows
  rw [onwardPairs, onwardRows, List.map_reverse]
  conv_rhs => rw [← hrows, List.filter_map]
  rfl

theorem mem_onwardPairs {rows : List Connection} {spent : List String} {guid : String}
    {row : Connection} {j : Nat} :
    (row, j) ∈ onwardPairs rows spent guid ↔
      rows[j]? = some row ∧ row.source.guid = guid ∧ row.hasPeer = true ∧
        row.touchesAny spent = false := by
  simp [onwardPairs, List.mem_zipIdx_iff_getElem?, and_assoc]

theorem pairwise_gt_map_snd_onwardPairs (rows : List Connection) (spent : List String)
    (guid : String) : ((onwardPairs rows spent guid).map Prod.snd).Pairwise (· > ·) := by
  rw [onwardPairs, List.map_reverse, List.pairwise_reverse]
  exact (pairwise_lt_map_snd_zipIdx rows).sublist (List.filter_sublist.map _)

theorem nodup_map_snd_onwardPairs (rows : List Connection) (spent : List String)
    (guid : String) : ((onwardPairs rows spent guid).map Prod.snd).Nodup :=
  (pairwise_gt_map_snd_onwardPairs rows spent guid).imp Nat.ne_of_gt

/-- What the walked rows leave, each with the place of its row in the pool. -/
def crossings (rows : List Connection) (seen : RelaySet) (walked : List Arrival) :
    List (Placement × Nat) :=
  offspring (fun earlier a =>
    (onwardPairs rows (earlier.map Arrival.node) a.node).map fun (row, j) =>
      ((a.onward row).place seen, j)) walked

theorem map_fst_crossings (rows : List Connection) (seen : RelaySet) (walked : List Arrival) :
    (crossings rows seen walked).map Prod.fst =
      (offspring (Arrival.next rows) walked).map (Arrival.place seen) := by
  rw [crossings, map_offspring, map_offspring]
  congr 1
  funext earlier a
  rw [Arrival.next, ← map_fst_onwardPairs]
  simp only [List.map_map]
  rfl

theorem mem_crossings {rows : List Connection} {seen : RelaySet} {walked : List Arrival}
    {p : Placement} {j : Nat} :
    (p, j) ∈ crossings rows seen walked ↔
      ∃ earlier a later, walked = earlier ++ a :: later ∧
        ∃ row, (row, j) ∈ onwardPairs rows (earlier.map Arrival.node) a.node ∧
          p = (a.onward row).place seen := by
  simp only [crossings, mem_offspring, List.mem_map, Prod.exists, Prod.mk.injEq]
  constructor
  · rintro ⟨earlier, a, later, hwalked, row, _, hrow, rfl, rfl⟩
    exact ⟨earlier, a, later, hwalked, row, hrow, rfl⟩
  · rintro ⟨earlier, a, later, hwalked, row, hrow, rfl⟩
    exact ⟨earlier, a, later, hwalked, row, j, hrow, rfl, rfl⟩

/-- A row walked from one arrival touches it, so no later arrival can walk the row. -/
theorem nodup_map_snd_crossings (rows : List Connection) (seen : RelaySet)
    (walked : List Arrival) : ((crossings rows seen walked).map Prod.snd).Nodup := by
  rw [crossings, map_offspring, offspring, List.nodup_flatMap]
  simp only [List.map_map, Function.comp_def]
  refine ⟨fun x _ => nodup_map_snd_onwardPairs rows _ _, ?_⟩
  apply (pairwise_withEarlier walked).imp
  rintro ⟨earlier, a⟩ ⟨between, b⟩ hbetween j hj hj'
  obtain ⟨⟨row, _⟩, hrow, rfl⟩ := List.mem_map.mp hj
  obtain ⟨⟨row', _⟩, hrow', rfl⟩ := List.mem_map.mp hj'
  obtain ⟨hget, hsource, -, -⟩ := mem_onwardPairs.mp hrow
  obtain ⟨hget', -, -, hspent⟩ := mem_onwardPairs.mp hrow'
  obtain rfl : row = row' := Option.some.inj (hget.symm.trans hget')
  apply (Connection.touchesAny_eq_false_iff.mp hspent).1
  rw [hsource]
  exact List.mem_map_of_mem hbetween

namespace Spread

variable {rows : List Connection} {o : Origin}

theorem beyondLinks_ofOrigin (hrows : rows.length < UInt32.size - 1) (seen : RelaySet) :
    (ofOrigin rows o seen).beyondLinks =
      (offspring (Arrival.next rows) (walked rows o)).map (Arrival.place seen) := by
  have hfirsts : ∀ p ∈ (firsts rows o).map (Arrival.place seen), ¬2 ≤ p.level.toNat := by
    rw [map_place_firsts]
    simp [Placement.ofLink]
  have hoffspring : ∀ p ∈ (offspring (Arrival.next rows) (walked rows o)).map
      (Arrival.place seen), 2 ≤ p.level.toNat := by
    intro p hp
    obtain ⟨b, hb, rfl⟩ := List.mem_map.mp hp
    obtain ⟨earlier, a, later, hwalked, hb⟩ := mem_offspring.mp hb
    obtain ⟨row, hrow, rfl⟩ := Arrival.mem_next.mp hb
    have ha : a ∈ walked rows o := by simp [hwalked]
    have hpos := level_walked_pos ha
    rw [toNat_level_place hrows (onward_mem_walked hwalked hrow), Arrival.level_onward]
    omega
  have hroot : ¬2 ≤ (Placement.ofOrigin o).level.toNat := by simp [Placement.ofOrigin]
  rw [beyondLinks, placements_ofOrigin, walked_eq, List.map_append, ← walked_eq,
    List.filter_cons_of_neg (by simpa using hroot), List.filter_append,
    List.filter_eq_nil_iff.mpr (by simpa using hfirsts),
    List.filter_eq_self.mpr (by simpa using hoffspring), List.nil_append]

theorem mem_map_snd_crossings {seen : RelaySet} {j : Nat} :
    j ∈ (crossings rows seen (walked rows o)).map Prod.snd ↔
      ∃ row, rows[j]? = some row ∧ (ofOrigin rows o seen).Crosses row := by
  simp only [List.mem_map, Prod.exists, exists_eq_right, mem_crossings, mem_onwardPairs,
    crosses_iff]
  constructor
  · rintro ⟨_, earlier, a, later, hwalked, row, ⟨hget, hsource, hpeer, hspent⟩, rfl⟩
    exact ⟨row, hget, hpeer, earlier, a, later, hwalked, hsource, hspent⟩
  · rintro ⟨row, hget, hpeer, earlier, a, later, hwalked, hsource, hspent⟩
    exact ⟨_, earlier, a, later, hwalked, row, ⟨hget, hsource, hpeer, hspent⟩, rfl⟩

theorem exists_isOver_of_mem_crossings {seen : RelaySet} {walked : List Arrival}
    {p : Placement} {j : Nat} (h : (p, j) ∈ crossings rows seen walked) :
    ∃ row, rows[j]? = some row ∧ p.IsOver row := by
  obtain ⟨earlier, a, later, -, row, hrow, rfl⟩ := mem_crossings.mp h
  exact ⟨row, (mem_onwardPairs.mp hrow).1, rfl, rfl, rfl, rfl, rfl, rfl⟩

theorem exists_crosses_of_mem_crossings {seen : RelaySet} {p : Placement} {j : Nat}
    (h : (p, j) ∈ crossings rows seen (walked rows o)) :
    ∃ row, rows[j]? = some row ∧ (ofOrigin rows o seen).Crosses row ∧ p.IsOver row := by
  obtain ⟨row, hget, hover⟩ := exists_isOver_of_mem_crossings h
  obtain ⟨row', hget', hcrosses⟩ := mem_map_snd_crossings.mp (List.mem_map_of_mem h)
  obtain rfl : row = row' := Option.some.inj (hget.symm.trans hget')
  exact ⟨row, hget, hcrosses, hover⟩

theorem exists_crosses_of_mem_beyondLinks (hrows : rows.length < UInt32.size - 1) {seen : RelaySet}
    {p : Placement} (h : p ∈ (ofOrigin rows o seen).beyondLinks) :
    ∃ row ∈ rows, (ofOrigin rows o seen).Crosses row ∧ p.IsOver row := by
  rw [beyondLinks_ofOrigin hrows, ← map_fst_crossings] at h
  obtain ⟨⟨p, j⟩, hmem, rfl⟩ := List.mem_map.mp h
  obtain ⟨row, hget, hcrosses, hover⟩ := exists_crosses_of_mem_crossings hmem
  exact ⟨row, List.mem_of_getElem? hget, hcrosses, hover⟩

/-- To count placements is to count the rows they are over. -/
theorem countP_crossings_of_iff (seen : RelaySet) {P : Placement → Prop} {Q : Connection → Prop}
    [DecidablePred P] [DecidablePred Q]
    (hcrosses : ∀ row ∈ rows, Q row → (ofOrigin rows o seen).Crosses row)
    (hiff : ∀ p row, (ofOrigin rows o seen).Crosses row → p.IsOver row → (P p ↔ Q row)) :
    ((crossings rows seen (walked rows o)).map Prod.fst).countP (fun p => P p) =
      rows.countP fun row => Q row := by
  have hpool := List.zipIdx_map_fst 0 rows
  conv_rhs => rw [← hpool]
  rw [List.countP_map, List.countP_map, List.countP_eq_length_filter,
    List.countP_eq_length_filter, ← List.length_map Prod.snd, ← List.length_map Prod.snd]
  apply List.Perm.length_eq
  rw [List.perm_ext_iff_of_nodup
    ((nodup_map_snd_crossings rows seen _).sublist (List.filter_sublist.map _))
    ((nodup_map_snd_zipIdx rows).sublist (List.filter_sublist.map _))]
  intro j
  simp only [List.mem_map, List.mem_filter, Prod.exists, exists_eq_right, Function.comp_apply,
    decide_eq_true_eq, List.mem_zipIdx_iff_getElem?]
  constructor
  · rintro ⟨p, hmem, hp⟩
    obtain ⟨row, hget, hrow, hover⟩ := exists_crosses_of_mem_crossings hmem
    exact ⟨row, hget, (hiff p row hrow hover).mp hp⟩
  · rintro ⟨row, hget, hq⟩
    have hrow := hcrosses row (List.mem_of_getElem? hget) hq
    obtain ⟨⟨p, _⟩, hmem, rfl⟩ := List.mem_map.mp (mem_map_snd_crossings.mpr ⟨row, hget, hrow⟩)
    obtain ⟨row', hget', hrow', hover⟩ := exists_crosses_of_mem_crossings hmem
    obtain rfl : row = row' := Option.some.inj (hget.symm.trans hget')
    exact ⟨p, hmem, (hiff p row hrow' hover).mpr hq⟩

/-- The rows between two nodes are walked all or not at all, as the choice does not depend on
anything else. -/
theorem countP_crossings (seen : RelaySet) {source peer : String}
    (hcrosses : ∀ row ∈ rows, row.source.guid = source → row.peer.guid = peer →
      (ofOrigin rows o seen).Crosses row) :
    ((crossings rows seen (walked rows o)).map Prod.fst).countP
        (fun p => p.parent = some source ∧ p.node = peer) =
      rows.countP fun row => row.source.guid = source ∧ row.peer.guid = peer := by
  apply countP_crossings_of_iff
  · rintro row hrow ⟨hsource, hpeer⟩
    exact hcrosses row hrow hsource hpeer
  · intro p row _ hover
    rw [hover.parent_eq, hover.node_eq, Option.some.injEq]

/-- The placements behind the links stand one to one for the rows whose source is placed, and
placed no later than the peer. -/
theorem walked_rows_iff (rows : List Connection) (o : Origin) (seen : RelaySet)
    (hrows : rows.length < UInt32.size - 1) :
    ∃ s, trace rows (some o) seen = .ok s ∧
      (∃ pairs : List (Placement × Nat), pairs.map Prod.fst = s.beyondLinks ∧
        (pairs.map Prod.snd).Nodup ∧
        (∀ j, j ∈ pairs.map Prod.snd ↔ ∃ row, rows[j]? = some row ∧ s.Crosses row) ∧
        ∀ p j, (p, j) ∈ pairs → ∃ row, rows[j]? = some row ∧ p.IsOver row) ∧
      (∀ p ∈ s.beyondLinks, ∀ source, p.parent = some source →
        s.beyondLinks.countP (fun q => q.parent = some source ∧ q.node = p.node) =
          rows.countP fun row => row.source.guid = source ∧ row.peer.guid = p.node) ∧
      ∀ p ∈ s.beyondLinks, ∀ q ∈ s.beyondLinks, p.parent = some q.node →
        q.parent = some p.node → p.node = q.node := by
  refine ⟨ofOrigin rows o seen, rfl, ?_, ?_, ?_⟩
  · refine ⟨crossings rows seen (walked rows o), ?_, nodup_map_snd_crossings _ _ _, ?_, ?_⟩
    · rw [map_fst_crossings, beyondLinks_ofOrigin hrows]
    · exact fun j => mem_map_snd_crossings
    · exact fun p j => exists_isOver_of_mem_crossings
  · intro p hp source hparent
    obtain ⟨row, -, hcrosses, hover⟩ := exists_crosses_of_mem_beyondLinks hrows hp
    rw [beyondLinks_ofOrigin hrows, ← map_fst_crossings]
    apply countP_crossings
    intro row' _ hsource hpeer
    apply hcrosses.congr
    · exact hsource.trans (Option.some.inj (hparent.symm.trans hover.parent_eq))
    · exact hpeer.trans hover.node_eq
  · intro p hp q hq hparent hparent'
    obtain ⟨row, -, hcrosses, hover⟩ := exists_crosses_of_mem_beyondLinks hrows hp
    obtain ⟨row', -, hcrosses', hover'⟩ := exists_crosses_of_mem_beyondLinks hrows hq
    have hsource : row.source.guid = q.node :=
      Option.some.inj (hover.parent_eq.symm.trans hparent)
    have hsource' : row'.source.guid = p.node :=
      Option.some.inj (hover'.parent_eq.symm.trans hparent')
    have hle := hcrosses.first_le
    have hle' := hcrosses'.first_le
    rw [hsource, ← hover.node_eq] at hle
    rw [hsource', ← hover'.node_eq] at hle'
    exact eq_of_first_eq (hsource ▸ hcrosses.placed) (Nat.le_antisymm hle hle')

theorem walked_rows_iff_tangle :
    tangle.length < UInt32.size - 1 ∧
      ∃ s, trace tangle (some tangleOrigin) .empty = .ok s ∧
        (∃ pairs : List (Placement × Nat), pairs.map Prod.fst = s.beyondLinks ∧
          (pairs.map Prod.snd).Nodup) ∧
        s.beyondLinks.countP (fun q => q.parent = some "b" ∧ q.node = "d") = 2 := by
  obtain ⟨s, hs, ⟨pairs, hfst, hsnd, -⟩, hcount, -⟩ :=
    walked_rows_iff tangle tangleOrigin .empty (by decide)
  refine ⟨by decide, s, hs, ⟨pairs, hfst, hsnd⟩, ?_⟩
  have heq : ofOrigin tangle tangleOrigin .empty = s := Except.ok.inj hs
  have hplaced : ∃ p ∈ s.beyondLinks, p.parent = some "b" ∧ p.node = "d" := by
    subst heq
    decide +kernel
  obtain ⟨p, hp, hparent, hnode⟩ := hplaced
  rw [← hnode, hcount p hp "b" hparent, hnode]
  decide

end Spread
end VoteTrace
