import VoteTrace.Proofs.Spread.Blocks

namespace VoteTrace

namespace Connection

/-- The row has one of the two nodes on it. A node without identifier is on no row. -/
def IsAbout (row : Connection) (guid peer : String) : Prop :=
  (peer ≠ "" ∧ row.touches peer) ∨ (guid ≠ "" ∧ row.touches guid)

instance (row : Connection) (guid peer : String) : Decidable (row.IsAbout guid peer) :=
  inferInstanceAs (Decidable (_ ∨ _))

/-- The relay of a node on the row. Where both sides are the node, the peer's side is read. -/
def relayOf (row : Connection) (guid : String) : Option String :=
  if row.peer.guid = guid then row.peer.relay else row.source.relay

/-- The row when nothing is known of relays. -/
def withoutRelays (row : Connection) : Connection :=
  { source := { row.source with relay := none }
    peer := { row.peer with relay := none } }

/-- The row is the first of a pool that has one of the two nodes on it. -/
def IsFirstAbout (row : Connection) (rows : List Connection) (guid peer : String) : Prop :=
  ∃ before after, rows = before ++ row :: after ∧ row.IsAbout guid peer ∧
    ∀ r ∈ before, ¬r.IsAbout guid peer

theorem IsFirstAbout.isAbout {row : Connection} {rows : List Connection} {guid peer : String}
    (h : row.IsFirstAbout rows guid peer) : row.IsAbout guid peer := by
  obtain ⟨-, -, -, habout, -⟩ := h
  exact habout

end Connection

namespace HopRelays

variable {guid peer : String} {row : Connection}

theorem ofRow?_eq_none_iff : ofRow? guid peer row = none ↔ ¬row.IsAbout guid peer := by
  simp only [ofRow?, Connection.IsAbout, Connection.touches, Bool.or_eq_true, beq_iff_eq]
  grind

theorem ofRow?_of_touches_peer (hpeer : peer ≠ "") (h : row.touches peer) :
    ofRow? guid peer row = some ⟨none, row.relayOf peer⟩ := by
  simp only [Connection.touches, Bool.or_eq_true, beq_iff_eq] at h
  by_cases hside : row.peer.guid = peer
  · rw [ofRow?, Connection.relayOf, if_pos ⟨hpeer, hside⟩, if_pos hside]
  · rw [ofRow?, Connection.relayOf, if_neg fun h => hside h.2,
      if_pos ⟨hpeer, h.resolve_right hside⟩, if_neg hside]

theorem ofRow?_of_not_touches_peer (habout : row.IsAbout guid peer) (h : ¬row.touches peer) :
    ofRow? guid peer row = some ⟨row.relayOf guid, none⟩ := by
  obtain ⟨hguid, htouches⟩ := habout.resolve_left fun habout => h habout.2
  simp only [Connection.touches, Bool.or_eq_true, beq_iff_eq, not_or] at h htouches
  rw [ofRow?, if_neg fun hside => h.2 hside.2, if_neg fun hside => h.1 hside.2]
  by_cases hside : row.peer.guid = guid
  · rw [Connection.relayOf, if_pos ⟨hguid, hside⟩, if_pos hside]
  · rw [Connection.relayOf, if_neg fun h => hside h.2,
      if_pos ⟨hguid, htouches.resolve_right hside⟩, if_neg hside]

theorem ofRows_of_isFirstAbout {rows : List Connection} {relays : HopRelays}
    (h : row.IsFirstAbout rows guid peer) (hrelays : ofRow? guid peer row = some relays) :
    ofRows rows guid peer = relays := by
  obtain ⟨before, after, rfl, -, hbefore⟩ := h
  have hnone : before.findSome? (ofRow? guid peer) = none :=
    List.findSome?_eq_none_iff.mpr fun r hr => ofRow?_eq_none_iff.mpr (hbefore r hr)
  simp [ofRows, List.findSome?_append, hnone, hrelays]

theorem ofRows_of_forall_not_isAbout {rows : List Connection}
    (h : ∀ row ∈ rows, ¬row.IsAbout guid peer) : ofRows rows guid peer = unknown := by
  have hnone : rows.findSome? (ofRow? guid peer) = none :=
    List.findSome?_eq_none_iff.mpr fun r hr => ofRow?_eq_none_iff.mpr (h r hr)
  rw [ofRows, hnone, Option.getD_none]

/-- What stands behind a row with one of the nodes on it is not read. -/
theorem ofRows_append_cons (h : row.IsAbout guid peer) (before after after' : List Connection) :
    ofRows (before ++ row :: after) guid peer = ofRows (before ++ row :: after') guid peer := by
  obtain ⟨relays, hrelays⟩ := Option.ne_none_iff_exists'.mp
    (mt ofRow?_eq_none_iff.mp (not_not_intro h))
  simp only [ofRows, List.findSome?_append, List.findSome?_cons, hrelays]

end HopRelays

/-- The relays of a first hop are those that the first row about it tells. -/
structure Placement.HasFirstRelays (p : Placement) (rows : List Connection) (o : Origin) :
    Prop where
  of_touches_peer : ∀ row : Connection, row.IsFirstAbout rows o.guid p.node →
    row.touches p.node → p.relay = row.relayOf p.node ∧ p.parentRelay = o.relay
  of_touches_origin : ∀ row : Connection, row.IsFirstAbout rows o.guid p.node →
    ¬row.touches p.node → p.relay = none ∧ p.parentRelay = (row.relayOf o.guid).or o.relay
  of_forall_not_isAbout : (∀ row ∈ rows, ¬row.IsAbout o.guid p.node) →
    p.relay = none ∧ p.parentRelay = o.relay

theorem Placement.hasFirstRelays_ofLink {o : Origin} {link : Connection} (h : link ∈ o.seeds)
    (rows : List Connection) (seen : RelaySet) :
    (ofLink rows o seen link).HasFirstRelays rows o := by
  have hpeer : link.peer.guid ≠ "" := by
    simpa [Connection.hasPeer] using (List.mem_filter.mp h).2
  refine ⟨fun row hfirst htouches => ?_, fun row hfirst htouches => ?_, fun hnone => ?_⟩
  · have hrelays : HopRelays.ofRows rows o.guid link.peer.guid =
        ⟨none, row.relayOf link.peer.guid⟩ :=
      HopRelays.ofRows_of_isFirstAbout hfirst
        (HopRelays.ofRow?_of_touches_peer hpeer htouches)
    simp [ofLink, hrelays]
  · have hrelays : HopRelays.ofRows rows o.guid link.peer.guid =
        ⟨row.relayOf o.guid, none⟩ :=
      HopRelays.ofRows_of_isFirstAbout hfirst
        (HopRelays.ofRow?_of_not_touches_peer hfirst.isAbout htouches)
    simp [ofLink, hrelays]
  · have hrelays : HopRelays.ofRows rows o.guid link.peer.guid = .unknown :=
      HopRelays.ofRows_of_forall_not_isAbout hnone
    simp [ofLink, hrelays, HopRelays.unknown]

namespace Spread

variable {rows : List Connection} {o : Origin} {seen : RelaySet}

theorem getElem?_placements_link {i : Nat} {link : Connection} (h : o.seeds[i]? = some link)
    (rows : List Connection) (seen : RelaySet) :
    (ofOrigin rows o seen).placements[i + 1]? = some (Placement.ofLink rows o seen link) := by
  have hi : i < o.seeds.length := (List.getElem?_eq_some_iff.mp h).1
  rw [placements_ofOrigin, map_place_walked, List.getElem?_cons_succ,
    List.getElem?_append_left (by simpa using hi), List.getElem?_map, h, Option.map_some]

/-- The first level is right behind the root, and has a place for each link. -/
theorem exists_level_one_at_iff (hrows : rows.length < UInt32.size - 1) {i : Nat} :
    (∃ p, (ofOrigin rows o seen).placements[i]? = some p ∧ p.level = 1) ↔
      1 ≤ i ∧ i ≤ o.seeds.length := by
  rcases i with _ | i
  · simp [placements_ofOrigin, Placement.ofOrigin]
  · rw [Nat.succ_le_iff]
    constructor
    · rintro ⟨p, hp, hlevel⟩
      refine ⟨Nat.succ_pos i, Nat.lt_of_not_le fun hi => ?_⟩
      rw [placements_ofOrigin, map_place_walked, List.getElem?_cons_succ,
        List.getElem?_append_right (by simpa using hi)] at hp
      exact level_ne_one_of_mem_offspring hrows (List.mem_of_getElem? hp) hlevel
    · rintro ⟨-, hi⟩
      exact ⟨_, getElem?_placements_link (List.getElem?_eq_getElem hi) rows seen, rfl⟩

/-- What a link says of relays has no part in a trace. -/
theorem ofOrigin_congr_links {links : List Connection}
    (h : links.map Connection.withoutRelays = o.links.map Connection.withoutRelays)
    (rows : List Connection) (seen : RelaySet) :
    ofOrigin rows { o with links := links } seen = ofOrigin rows o seen := by
  have hseeds : (links.filter Connection.hasPeer).map (Hop.seed rows o) =
      o.seeds.map (Hop.seed rows o) := by
    have hpeers := congrArg (fun l => (l.filter Connection.hasPeer).map (Hop.seed rows o)) h
    simp only [List.filter_map, List.map_map] at hpeers
    exact hpeers
  have hhops : seedHops rows { o with links := links } = seedHops rows o := hseeds
  rw [ofOrigin, ofOrigin, hhops]
  rfl

/-- The first level of a trace is one placement for each link, right behind the root. Its relays
are told by the first row about the hop in the whole pool, whatever the link says of them and
whatever rows stand behind that one. -/
theorem first_hops_read_first_row (rows : List Connection) (o : Origin) (seen : RelaySet)
    (hrows : rows.length < UInt32.size - 1) :
    ∃ s, trace rows (some o) seen = .ok s ∧
      (∀ i, (∃ p, s.placements[i]? = some p ∧ p.level = 1) ↔ 1 ≤ i ∧ i ≤ o.seeds.length) ∧
      (∀ i link, o.seeds[i]? = some link → ∃ p, s.placements[i + 1]? = some p ∧
        p.parent = some o.guid ∧ p.node = link.peer.guid ∧ p.HasFirstRelays rows o) ∧
      (∀ links : List Connection,
        links.map Connection.withoutRelays = o.links.map Connection.withoutRelays →
          trace rows (some { o with links := links }) seen = .ok s) ∧
      ∀ i link before row after after', o.seeds[i]? = some link →
        rows = before ++ row :: after → row.IsAbout o.guid link.peer.guid →
          ∃ s', trace (before ++ row :: after') (some o) seen = .ok s' ∧
            s'.placements[i + 1]? = s.placements[i + 1]? := by
  refine ⟨ofOrigin rows o seen, rfl, fun i => exists_level_one_at_iff hrows, ?_, ?_, ?_⟩
  · intro i link hlink
    exact ⟨_, getElem?_placements_link hlink rows seen, rfl, rfl,
      Placement.hasFirstRelays_ofLink (List.mem_of_getElem? hlink) rows seen⟩
  · intro links hlinks
    exact congrArg Except.ok (ofOrigin_congr_links hlinks rows seen)
  · rintro i link before row after after' hlink rfl habout
    refine ⟨_, rfl, ?_⟩
    rw [getElem?_placements_link hlink, getElem?_placements_link hlink, Placement.ofLink,
      HopRelays.ofRows_append_cons habout before after' after, Placement.ofLink]

/-- A row that tells relays. -/
def relayed (source sourceRelay peer peerRelay : String) : Connection :=
  { source := { Endpoint.ofGuid source with relay := some sourceRelay }
    peer := { Endpoint.ofGuid peer with relay := some peerRelay } }

/-- A row with `b`, one from `c` to itself, and one with the origin in front of one with `d`. -/
def switchboard : List Connection :=
  [relayed "x" "rx" "b" "rb", relayed "c" "near c" "c" "far c", relayed "a" "ra" "y" "ry",
    relayed "d" "rd" "a" "other ra"]

def caller : Origin :=
  { Origin.withLinks "a" [relayed "a" "own" "b" "own", .between "a" "", .between "a" "c",
      relayed "a" "own" "d" "own"] with relay := some "own a" }

theorem first_hops_read_first_row_switchboard :
    switchboard.length < UInt32.size - 1 ∧
      ∃ s b c d, trace switchboard (some caller) .empty = .ok s ∧
        s.placements[1]? = some b ∧ b.relay = some "rb" ∧ b.parentRelay = some "own a" ∧
        s.placements[2]? = some c ∧ c.relay = some "far c" ∧ c.parentRelay = some "own a" ∧
        s.placements[3]? = some d ∧ d.relay = none ∧ d.parentRelay = some "ra" ∧
        ¬∃ p, s.placements[4]? = some p ∧ p.level = 1 := by
  obtain ⟨s, hs, hlevel, hlinks, -, -⟩ :=
    first_hops_read_first_row switchboard caller .empty (by decide)
  obtain ⟨b, hb, -, hbnode, hbrelays⟩ := hlinks 0 _ rfl
  obtain ⟨c, hc, -, hcnode, hcrelays⟩ := hlinks 1 _ rfl
  obtain ⟨d, hd, -, hdnode, hdrelays⟩ := hlinks 2 _ rfl
  have hbrow := hbrelays.of_touches_peer (relayed "x" "rx" "b" "rb")
    ⟨[], switchboard.drop 1, rfl, by rw [hbnode]; decide, by simp⟩ (by rw [hbnode]; decide)
  have hcrow := hcrelays.of_touches_peer (relayed "c" "near c" "c" "far c")
    ⟨switchboard.take 1, switchboard.drop 2, rfl, by rw [hcnode]; decide,
      by rw [hcnode]; decide⟩ (by rw [hcnode]; decide)
  have hdrow := hdrelays.of_touches_origin (relayed "a" "ra" "y" "ry")
    ⟨switchboard.take 2, switchboard.drop 3, rfl, by rw [hdnode]; decide,
      by rw [hdnode]; decide⟩ (by rw [hdnode]; decide)
  rw [hbnode] at hbrow
  rw [hcnode] at hcrow
  exact ⟨by decide, s, b, c, d, hs, hb, hbrow.1, hbrow.2, hc, hcrow.1, hcrow.2, hd, hdrow.1,
    hdrow.2, fun h => absurd ((hlevel 4).mp h).2 (by decide)⟩

end Spread
end VoteTrace
