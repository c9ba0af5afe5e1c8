import VoteTrace.Proofs.Route.Seed
import VoteTrace.Proofs.Spread.Reach

namespace VoteTrace

namespace Telemetry

/-- What relays reported in the hour before a vote. -/
def recentRelayRows (t : Telemetry) (v : Vote) : List Connection :=
  (t.relayConnections.filter fun c => v.IsRecent c.timestamp).map DatedConnection.row

/-- What a host reported in the hour before a vote, as far as it names a peer. -/
def recentLinks (t : Telemetry) (v : Vote) (host : SourceHost) : List Connection :=
  (t.connections.filter fun c =>
    v.IsRecent c.timestamp ∧ host.key.selects c.row ∧ c.row.hasPeer).map DatedConnection.row

theorem relayRows_window (t : Telemetry) (v : Vote) :
    t.relayRows v.window = t.recentRelayRows v :=
  rowsIn_window v t.relayConnections

theorem filter_hasPeer_voterRows (t : Telemetry) (v : Vote) (host : SourceHost) :
    (t.voterRows v.window host.key).filter Connection.hasPeer = t.recentLinks v host := by
  rw [voterRows, rowsIn_window, List.filter_map, List.filter_map, List.filter_filter,
    List.filter_filter, recentLinks]
  congr 1
  apply List.filter_congr
  intro c _
  rw [Bool.eq_iff_iff]
  simp only [Function.comp_apply, Bool.and_eq_true, decide_eq_true_eq]
  tauto

end Telemetry

namespace TreeRow

theorem map_id_filter_level_one {rows : List Connection} {o : Origin} {seen : RelaySet}
    (hrows : rows.length < UInt32.size - 1) :
    ((ofSpread (.ofOrigin rows o seen)).filter fun row => row.level = 1).map id =
      o.seeds.map fun link => link.peer.guid := by
  have hlevel := Spread.filter_level_one_placements (o := o) hrows seen
  rw [ofSpread, List.filter_map, List.map_map]
  change ((Spread.ofOrigin rows o seen).placements.filter fun p => p.level = 1).map
    Placement.node = _
  rw [hlevel, List.map_map]
  rfl

theorem exists_below_root_iff {rows : List Connection} {o : Origin} {seen : RelaySet}
    {guid : String} :
    (∃ row ∈ ofSpread (.ofOrigin rows o seen), row.parent ≠ none ∧ row.id = guid) ↔
      o.Reaches rows guid := by
  rw [← Spread.exists_walked_iff_reaches]
  change _ ↔ ∃ a ∈ Spread.walked rows o, (a.place seen).node = guid
  rw [← Spread.exists_arrivals_iff (P := fun p => p.node = guid)]
  simp [ofSpread, ofPlacement, Spread.arrivals, Placement.isRoot, and_assoc,
    Option.isSome_iff_ne_none]

end TreeRow

namespace Route

theorem length_relayRows_window (t : Telemetry) (v : Vote) :
    (t.relayRows v.window).length =
      t.relayConnections.countP fun c => v.IsRecent c.timestamp := by
  rw [t.relayRows_window, Telemetry.recentRelayRows, List.length_map,
    ← List.countP_eq_length_filter]

variable {t : Telemetry} {r : RouteRequest} {v : Vote}

/-- The stub that stands in for missing rows leads nowhere. -/
theorem seeds_origin_host (t : Telemetry) (v : Vote) (host : SourceHost) :
    (origin t v (some host)).seeds = t.recentLinks v host := by
  rw [← Telemetry.filter_hasPeer_voterRows]
  change (hostLinks t v.window host).filter Connection.hasPeer = _
  unfold hostLinks
  split
  · rename_i hnone
    rw [hnone]
    rfl
  · rfl

theorem seeds_origin_eq_nil (h : ∀ host ∈ r.source, t.recentLinks v host = []) :
    (origin t v r.source).seeds = [] := by
  cases hsource : r.source with
  | none => rfl
  | some host => rw [seeds_origin_host, h host hsource]

theorem guid_origin (t : Telemetry) (v : Vote) (source : Option SourceHost) :
    (origin t v source).guid = source.elim v.node SourceHost.guid := by
  cases source with
  | none => rfl
  | some host => rfl

/-- The tree of a route: first the peers of the host, in the order of its rows, then all that
is in reach of them over rows of relays, and the root alone if there is no such peer. -/
theorem tree_shows_recent_rows (t : Telemetry) (r : RouteRequest) (route : Route)
    (hroute : resolve t r = .ok route) (hstyle : r.style = .tree) :
    ∃ v rows, t.seedVote? r = some v ∧ route.voteTimestamp = v.timestamp ∧
      route.drawing = .tree rows ∧
      route.tally.poolSize = (t.relayConnections.countP fun c => v.IsRecent c.timestamp) ∧
      (∀ host ∈ r.source,
        (t.relayConnections.length < UInt32.size - 1 →
          (rows.filter fun row => row.level = 1).map TreeRow.id =
            (t.recentLinks v host).map fun link => link.peer.guid) ∧
        ∀ guid, (∃ row ∈ rows, row.parent ≠ none ∧ row.id = guid) ↔
          ∃ link ∈ t.recentLinks v host, ∃ n,
            Trail (t.recentRelayRows v) link.peer.guid n guid) ∧
      ((∀ host ∈ r.source, t.recentLinks v host = []) →
        (∃ root, rows = [root] ∧ root.parent = none ∧ root.level = 0 ∧
          root.id = r.source.elim v.node SourceHost.guid) ∧
        route.tally.hops = 0 ∧ route.tally.spent = 0 ∧ route.tally.rings = 0) := by
  obtain ⟨v, hseed, rfl⟩ := resolve_eq_ok_iff.mp hroute
  refine ⟨v, TreeRow.ofSpread (spreadOf t r v), hseed, rfl, ?_, ?_, ?_, ?_⟩
  · rw [ofVote, hstyle]
    rfl
  · exact length_relayRows_window t v
  · intro host hhost
    have hseeds : (origin t v r.source).seeds = t.recentLinks v host := by
      rw [Option.mem_def.mp hhost, seeds_origin_host]
    constructor
    · intro hrows
      have hpool : (t.relayRows v.window).length < UInt32.size - 1 := by
        have hle := List.countP_le_length (p := fun c => v.IsRecent c.timestamp)
          (l := t.relayConnections)
        rw [length_relayRows_window]
        omega
      rw [spreadOf, TreeRow.map_id_filter_level_one hpool, hseeds]
    · intro guid
      rw [spreadOf, TreeRow.exists_below_root_iff, Origin.Reaches, t.relayRows_window]
      simp only [Origin.ReachesIn, hseeds]
      constructor
      · rintro ⟨n, link, hlink, htrail⟩
        exact ⟨link, hlink, n, htrail⟩
      · rintro ⟨link, hlink, n, htrail⟩
        exact ⟨n, link, hlink, htrail⟩
  · intro hnone
    have halone : spreadOf t r v = _ := Spread.ofOrigin_of_seeds_eq_nil
      (seeds_origin_eq_nil hnone) (t.reportedRelays r.round r.auth)
    rw [ofVote, halone]
    refine ⟨⟨_, rfl, rfl, rfl, ?_⟩, rfl, rfl, rfl⟩
    exact guid_origin t v r.source

/-- An hour with rows on both of its ends and behind them, and with rows of another host. -/
def busyHour : Telemetry :=
  { votes := [certificateVote 5000 "AUTH"]
    connections := [⟨1400, .between "v" "b"⟩, ⟨1399, .between "v" "x"⟩, ⟨4000, .between "v" ""⟩,
      ⟨4000, .between "w" "x"⟩, ⟨5000, .between "v" "a"⟩]
    relayConnections := [⟨1400, .between "a" "b"⟩, ⟨5000, .between "b" "c"⟩,
      ⟨5001, .between "c" "d"⟩, ⟨1399, .between "c" "e"⟩]
    sightings := []
    rounds := [] }

def askingForTree : RouteRequest :=
  { round := 42
    auth := some "AUTH"
    source := some ⟨"v", "v", none⟩
    style := .tree }

theorem tree_shows_recent_rows_busyHour :
    ∃ route rows, resolve busyHour askingForTree = .ok route ∧ askingForTree.style = .tree ∧
      route.drawing = .tree rows ∧ route.tally.poolSize = 2 ∧
      (rows.filter fun row => row.level = 1).map TreeRow.id = ["b", "a"] ∧
      (∃ row ∈ rows, row.parent ≠ none ∧ row.id = "c") ∧
      ∃ alone root, resolve busyHour { askingForTree with source := none } = .ok alone ∧
        alone.drawing = .tree [root] ∧ alone.tally.hops = 0 := by
  have hvote : busyHour.seedVote? askingForTree = some (certificateVote 5000 "AUTH") := by
    decide +kernel
  have hroute := resolve_eq_ok_iff.mpr ⟨_, hvote, rfl⟩
  obtain ⟨v, rows, hseed, -, hrows, hpool, hhost, -⟩ :=
    tree_shows_recent_rows busyHour askingForTree _ hroute rfl
  obtain rfl : certificateVote 5000 "AUTH" = v := Option.some.inj (hvote.symm.trans hseed)
  obtain ⟨hpeers, hreach⟩ := hhost _ rfl
  have htrail : Trail (busyHour.recentRelayRows (certificateVote 5000 "AUTH")) "b" 1 "c" :=
    @Trail.onward _ "b" 0 (.between "b" "c") .here (by decide +kernel) rfl
  have hlink : Connection.between "v" "b" ∈
      busyHour.recentLinks (certificateVote 5000 "AUTH") ⟨"v", "v", none⟩ := by
    decide +kernel
  have halone : busyHour.seedVote? { askingForTree with source := none } =
      some (certificateVote 5000 "AUTH") := by
    decide +kernel
  have hroute' := resolve_eq_ok_iff.mpr ⟨_, halone, rfl⟩
  obtain ⟨v', rows', -, -, hrows', -, -, hroot⟩ :=
    tree_shows_recent_rows busyHour { askingForTree with source := none } _ hroute' rfl
  obtain ⟨⟨root, rfl, -⟩, hhops, -⟩ := hroot (by simp)
  refine ⟨_, rows, hroute, rfl, hrows, hpool.trans (by decide +kernel),
    (hpeers (by decide)).trans (by decide +kernel), (hreach "c").mpr ⟨_, hlink, 1, htrail⟩,
    _, root, hroute', hrows', hhops⟩

end Route
end VoteTrace
