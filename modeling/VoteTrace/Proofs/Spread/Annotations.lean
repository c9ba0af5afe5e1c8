import VoteTrace.Proofs.Spread.Crossings

/-!
Names, relays, points and times do not steer a walk.

A walk over annotated rows, once its annotations are blotted out, unfolds over the rows without
annotations. So two walks over rows with the same ends take the same hops.

Main statement: two traces whose rows, links and origins have the same nodes place the same
nodes under the same parents at the same levels; the relays already seen only mark placements.
-/

namespace VoteTrace

namespace Connection

def ends (row : Connection) : String × String := (row.source.guid, row.peer.guid)

/-- The row without all that is known of its nodes. -/
def bare (row : Connection) : Connection := .between row.source.guid row.peer.guid

theorem map_bare_eq_of_map_ends_eq {rows rows' : List Connection}
    (h : rows.map ends = rows'.map ends) : rows.map bare = rows'.map bare := by
  have hbare := congrArg (List.map fun x => Connection.between x.1 x.2) h
  rwa [List.map_map, List.map_map] at hbare

theorem countP_touchesAny_map_bare (rows : List Connection) (nodes : List String) :
    (rows.map bare).countP (fun row => row.touchesAny nodes) =
      rows.countP fun row => row.touchesAny nodes := by
  rw [List.countP_map]
  rfl

end Connection

theorem onwardRows_map_bare (rows : List Connection) (spent : List String) (guid : String) :
    onwardRows (rows.map Connection.bare) spent guid =
      (onwardRows rows spent guid).map Connection.bare := by
  rw [onwardRows, onwardRows, List.filter_map, List.map_reverse]
  rfl

namespace Arrival

/-- An arrival of which only the nodes are known. -/
def ofEnds (level : Nat) (parent node : String) : Arrival :=
  { level := level
    hop :=
      { parent := parent
        node := node
        name := node
        parentRelay := none
        relay := none
        parentPoint := none
        point := none } }

def bare (a : Arrival) : Arrival := ofEnds a.level a.hop.parent a.hop.node

theorem bare_onward (a : Arrival) (row : Connection) :
    (a.onward row).bare = a.bare.onward row.bare := rfl

theorem map_bare_next (rows : List Connection) (earlier : List Arrival) (a : Arrival) :
    (next rows earlier a).map bare =
      next (rows.map Connection.bare) (earlier.map bare) a.bare := by
  simp only [next, onwardRows_map_bare, List.map_map, Function.comp_def, bare_onward]
  rfl

end Arrival

namespace Placement

/-- What a placement says of the way of the vote. -/
def outline (p : Placement) : UInt32 × Option String × String := (p.level, p.parent, p.node)

def unmarked (p : Placement) : Placement := { p with seen := false }

end Placement

namespace Spread

section Steering

variable {rows rows' : List Connection} {o o' : Origin}

theorem map_bare_firsts (rows : List Connection) (o : Origin) :
    (firsts rows o).map Arrival.bare =
      (o.seeds.map fun link => link.peer.guid).map (Arrival.ofEnds 1 o.guid) := by
  simp only [firsts, seedHops, List.map_map]
  rfl

theorem map_bare_walked (rows : List Connection) (o : Origin) :
    (walked rows o).map Arrival.bare =
      (firsts rows o).map Arrival.bare ++
        offspring (Arrival.next (rows.map Connection.bare)) ((walked rows o).map Arrival.bare) :=
  map_eq_of_eq_offspring Arrival.bare (Arrival.map_bare_next rows) (walked_eq rows o)

theorem map_bare_walked_eq (hrows : rows.map Connection.ends = rows'.map Connection.ends)
    (hguid : o.guid = o'.guid)
    (hpeers : o.seeds.map (fun link => link.peer.guid) =
      o'.seeds.map fun link => link.peer.guid) :
    (walked rows o).map Arrival.bare = (walked rows' o').map Arrival.bare := by
  have hwalked := map_bare_walked rows o
  rw [map_bare_firsts, Connection.map_bare_eq_of_map_ends_eq hrows, hguid, hpeers,
    ← map_bare_firsts rows' o'] at hwalked
  exact eq_of_eq_offspring Arrival.notMem_and_ne_of_mem_next hwalked (map_bare_walked rows' o')

theorem map_outline_placements (rows : List Connection) (o : Origin) (seen : RelaySet) :
    (ofOrigin rows o seen).placements.map Placement.outline = (0, none, o.guid) ::
      ((walked rows o).map Arrival.bare).map fun a => (a.place .empty).outline := by
  rw [placements_ofOrigin, List.map_cons, List.map_map, List.map_map]
  rfl

theorem spent_eq_of_map_bare_eq (hrows : rows.map Connection.bare = rows'.map Connection.bare)
    (hwalked : (walked rows o).map Arrival.bare = (walked rows' o').map Arrival.bare)
    (seen seen' : RelaySet) :
    (ofOrigin rows o seen).tally.spent = (ofOrigin rows' o' seen').tally.spent := by
  have hnodes := congrArg (List.map Arrival.node) hwalked
  rw [List.map_map, List.map_map] at hnodes
  change (walked rows o).map Arrival.node = (walked rows' o').map Arrival.node at hnodes
  rw [spent_ofOrigin, spent_ofOrigin, ← Connection.countP_touchesAny_map_bare rows,
    ← Connection.countP_touchesAny_map_bare rows', hrows, hnodes]

end Steering

section Marks

theorem mem_seenPositions {s : Spread} {i : Nat} :
    i ∈ s.seenPositions ↔ ∃ p, s.placements[i]? = some p ∧ p.seen = true := by
  simp [seenPositions, List.mem_zipIdx_iff_getElem?]

theorem pairwise_lt_seenPositions (s : Spread) : s.seenPositions.Pairwise (· < ·) :=
  (pairwise_lt_map_snd_zipIdx s.placements).sublist (List.filter_sublist.map _)

/-- The root is marked, and below it what is at a relay seen. -/
structure Marks (s : Spread) (seen : RelaySet) : Prop where
  pairwise_lt : s.seenPositions.Pairwise (· < ·)
  mem_iff : ∀ i, i ∈ s.seenPositions ↔ i = 0 ∨
    ∃ p, s.placements[i]? = some p ∧ p.isRoot = false ∧
      ∃ name, p.relay = some name ∧ name ≠ "" ∧ name ∈ seen.names

theorem seen_place_iff {seen : RelaySet} {a : Arrival} :
    (a.place seen).seen = true ↔
      ∃ name, (a.place seen).relay = some name ∧ name ≠ "" ∧ name ∈ seen.names := by
  change a.hop.relay.any seen.contains = true ↔
    ∃ name, a.hop.relay = some name ∧ name ≠ "" ∧ name ∈ seen.names
  rw [Option.any_eq_true]
  constructor
  · rintro ⟨name, hrelay, hmem⟩
    have hname : name ∈ seen.names := List.contains_iff_mem.mp hmem
    exact ⟨name, hrelay, fun hempty => seen.nonempty (hempty ▸ hname), hname⟩
  · rintro ⟨name, hrelay, -, hname⟩
    exact ⟨name, hrelay, List.contains_iff_mem.mpr hname⟩

theorem marks_ofOrigin (rows : List Connection) (o : Origin) (seen : RelaySet) :
    (ofOrigin rows o seen).Marks seen := by
  refine ⟨pairwise_lt_seenPositions _, ?_⟩
  intro i
  rw [mem_seenPositions]
  cases i with
  | zero => exact iff_of_true ⟨Placement.ofOrigin o, rfl, rfl⟩ (.inl rfl)
  | succ i =>
      simp only [placements_ofOrigin, List.getElem?_cons_succ, List.getElem?_map,
        Option.map_eq_some_iff, Nat.succ_ne_zero, false_or]
      constructor
      · rintro ⟨_, ⟨a, ha, rfl⟩, hseen⟩
        exact ⟨_, ⟨a, ha, rfl⟩, rfl, seen_place_iff.mp hseen⟩
      · rintro ⟨_, ⟨a, ha, rfl⟩, -, hrelay⟩
        exact ⟨_, ⟨a, ha, rfl⟩, seen_place_iff.mpr hrelay⟩

end Marks

/-- Traces whose rows have the same ends, from origins with the same node and the same peers,
take the same way, whatever else is known; the relays seen change marks and nothing but marks. -/
theorem annotations_do_not_steer (rows rows' : List Connection) (o o' : Origin)
    (seen seen' : RelaySet) (hrows : rows.map Connection.ends = rows'.map Connection.ends)
    (hguid : o.guid = o'.guid)
    (hpeers : o.seeds.map (fun link => link.peer.guid) =
      o'.seeds.map fun link => link.peer.guid) :
    ∃ s s', trace rows (some o) seen = .ok s ∧ trace rows' (some o') seen' = .ok s' ∧
      s.placements.map Placement.outline = s'.placements.map Placement.outline ∧
      s.tally.poolSize = s'.tally.poolSize ∧ s.tally.hops = s'.tally.hops ∧
      s.tally.spent = s'.tally.spent ∧ s.tally.rings = s'.tally.rings ∧
      (rows = rows' → o = o' →
        s.placements.map Placement.unmarked = s'.placements.map Placement.unmarked ∧
          s.tally = s'.tally) ∧
      s.Marks seen ∧ s'.Marks seen' := by
  have hwalked := map_bare_walked_eq hrows hguid hpeers
  have hlevels := congrArg (List.map Arrival.level) hwalked
  rw [List.map_map, List.map_map] at hlevels
  obtain ⟨hhops, hrings⟩ := hops_eq_and_rings_eq hlevels seen seen'
  refine ⟨ofOrigin rows o seen, ofOrigin rows' o' seen', rfl, rfl, ?_, ?_, hhops, ?_, hrings,
    ?_, marks_ofOrigin rows o seen, marks_ofOrigin rows' o' seen'⟩
  · rw [map_outline_placements, map_outline_placements, hwalked, hguid]
  · have hlength := congrArg List.length hrows
    rwa [List.length_map, List.length_map] at hlength
  · exact spent_eq_of_map_bare_eq (Connection.map_bare_eq_of_map_ends_eq hrows) hwalked seen seen'
  · rintro rfl rfl
    refine ⟨?_, rfl⟩
    rw [placements_ofOrigin, placements_ofOrigin, List.map_cons, List.map_cons, List.map_map,
      List.map_map]
    rfl

/-- A tangle of whose nodes more is known. -/
def namedTangle : List Connection :=
  tangle.map fun row =>
    { source := { row.source with relay := some "near" }
      peer := { row.peer with name := "peer", relay := some "far" } }

def namedOrigin : Origin :=
  { tangleOrigin with name := "voter", relay := some "near", timestamp := some 7 }

theorem annotations_do_not_steer_tangle :
    ∃ s s', trace namedTangle (some namedOrigin) (.ofList ["far"]) = .ok s ∧
      trace tangle (some tangleOrigin) .empty = .ok s' ∧ s.placements ≠ s'.placements ∧
      s.placements.map Placement.outline = s'.placements.map Placement.outline ∧
      ∃ t t', trace namedTangle (some namedOrigin) (.ofList ["far"]) = .ok t ∧
        trace namedTangle (some namedOrigin) .empty = .ok t' ∧
        t.placements.map Placement.unmarked = t'.placements.map Placement.unmarked ∧
        t.tally = t'.tally ∧ t.seenPositions = [0, 3, 4, 5, 6] ∧ t'.seenPositions = [0] := by
  obtain ⟨s, s', hs, hs', houtline, -⟩ := annotations_do_not_steer namedTangle tangle
    namedOrigin tangleOrigin (.ofList ["far"]) .empty (by decide) rfl rfl
  obtain ⟨t, t', ht, ht', -, -, -, -, -, hsame, -⟩ := annotations_do_not_steer namedTangle
    namedTangle namedOrigin namedOrigin (.ofList ["far"]) .empty rfl rfl rfl
  obtain ⟨hplacements, htally⟩ := hsame rfl rfl
  refine ⟨s, s', hs, hs', ?_, houtline, t, t', ht, ht', hplacements, htally, ?_, ?_⟩
  · cases hs
    cases hs'
    intro heq
    have hnames := congrArg (List.map Placement.name) heq
    revert hnames
    decide +kernel
  · cases ht
    decide +kernel
  · cases ht'
    decide +kernel

end Spread
end VoteTrace
