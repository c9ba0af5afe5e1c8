import VoteTrace.Chart.Tree
import VoteTrace.Proofs.Spread.Balance

namespace VoteTrace

/-- Where the row names a relay, the name is not empty. -/
structure Connection.NamesRelays (row : Connection) : Prop where
  source_ne : row.source.relay ≠ some ""
  peer_ne : row.peer.relay ≠ some ""

namespace HopRelays

variable {guid peer : String} {row : Connection}

theorem peerRelay_ne_of_ofRow? (hrow : row.NamesRelays) {relays : HopRelays}
    (h : ofRow? guid peer row = some relays) : relays.peerRelay ≠ some "" := by
  unfold ofRow? at h
  split at h
  · cases h
    exact hrow.peer_ne
  · split at h
    · cases h
      exact hrow.source_ne
    -- What a row tells of the origin alone leaves the peer's relay open.
    · split at h
      · cases h
        nofun
      · split at h
        · cases h
          nofun
        · cases h

theorem peerRelay_ofRows_ne {rows : List Connection} (hrows : ∀ row ∈ rows, row.NamesRelays) :
    (ofRows rows guid peer).peerRelay ≠ some "" := by
  rw [ofRows]
  cases hfound : rows.findSome? (ofRow? guid peer) with
  | none => nofun
  | some relays =>
      obtain ⟨row, hrow, htells⟩ := List.exists_of_findSome?_eq_some hfound
      exact peerRelay_ne_of_ofRow? (hrows row hrow) htells

end HopRelays

namespace TreeRow

/-- How many rows below the root show no relay. -/
def unnamed (rows : List TreeRow) : Nat :=
  rows.countP fun row => row.parent.isSome && row.relay.isNone

theorem isNone_shownRelay (relay : Option String) :
    (shownRelay relay).isNone = (relay.isNone || decide (relay = some "")) := by
  cases relay with
  | none => rfl
  | some name => by_cases h : name = "" <;> simp [shownRelay, Option.filter, h]

theorem countP_isNone_shownRelay (placements : List Placement) :
    placements.countP (fun p => (shownRelay p.relay).isNone) =
      placements.countP (fun p => p.relay.isNone) +
        placements.countP fun p => p.relay = some "" := by
  induction placements with
  | nil => rfl
  | cons p placements ih =>
      have hplacement : (if (shownRelay p.relay).isNone then 1 else 0) =
          (if p.relay.isNone then 1 else 0) + if p.relay = some "" then 1 else 0 := by
        rw [isNone_shownRelay]
        cases p.relay <;> simp
      simp only [List.countP_cons, decide_eq_true_eq]
      omega

theorem unnamed_ofSpread (s : Spread) :
    unnamed (ofSpread s) =
      s.arrivals.countP (fun p => p.relay.isNone) +
        s.arrivals.countP fun p => p.relay = some "" := by
  rw [← countP_isNone_shownRelay, unnamed, ofSpread, List.countP_map, Spread.arrivals,
    List.countP_filter]
  apply List.countP_congr
  intro p _
  cases hparent : p.parent <;> simp [ofPlacement, Placement.isRoot, hparent]

end TreeRow

namespace Spread

variable {rows : List Connection} {o : Origin}

theorem relay_ne_of_namesRelays (hrows : ∀ row ∈ rows, row.NamesRelays) :
    ∀ a ∈ walked rows o, a.hop.relay ≠ some "" := by
  apply walked_induction
  · intro a ha
    obtain ⟨link, -, rfl⟩ := mem_firsts.mp ha
    exact HopRelays.peerRelay_ofRows_ne hrows
  · intro earlier b later row _ hrow _
    exact (hrows row (mem_onwardRows.mp hrow).1).peer_ne

/-- The rows of a drawn tree without relay are the unresolved hops and the hops to a relay with an
empty name. The tally and the tree agree just where there are no such hops, as over rows that name
their relays. -/
theorem unnamed_rows_of_tree (rows : List Connection) (o : Origin) (seen : RelaySet) :
    ∃ s, trace rows (some o) seen = .ok s ∧
      TreeRow.unnamed (TreeRow.ofSpread s) =
        s.tally.unresolved + (s.arrivals.countP fun p => p.relay = some "") ∧
      (s.tally.unresolved = TreeRow.unnamed (TreeRow.ofSpread s) ↔
        ∀ p ∈ s.arrivals, p.relay ≠ some "") ∧
      ((∀ row ∈ rows, row.NamesRelays) →
        s.tally.unresolved = TreeRow.unnamed (TreeRow.ofSpread s)) := by
  have hunnamed := TreeRow.unnamed_ofSpread (ofOrigin rows o seen)
  rw [← (balances_ofOrigin rows o seen).unresolved_eq] at hunnamed
  have hagree : (ofOrigin rows o seen).tally.unresolved =
      TreeRow.unnamed (TreeRow.ofSpread (ofOrigin rows o seen)) ↔
        ∀ p ∈ (ofOrigin rows o seen).arrivals, p.relay ≠ some "" := by
    rw [hunnamed, Nat.left_eq_add, List.countP_eq_zero]
    simp only [decide_eq_true_eq, ne_eq]
  refine ⟨ofOrigin rows o seen, rfl, hunnamed, hagree, ?_⟩
  intro hrows
  rw [hagree, arrivals_ofOrigin]
  intro p hp
  obtain ⟨a, ha, rfl⟩ := List.mem_map.mp hp
  exact relay_ne_of_namesRelays hrows a ha

theorem unnamed_rows_of_tree_tangle :
    (∀ row ∈ tangle, row.NamesRelays) ∧
      ∃ s, trace tangle (some tangleOrigin) .empty = .ok s ∧
        s.tally.unresolved = TreeRow.unnamed (TreeRow.ofSpread s) ∧ s.tally.unresolved = 6 := by
  have hnames : ∀ row ∈ tangle, row.NamesRelays := by
    intro row hrow
    simp only [tangle, List.mem_cons, List.not_mem_nil, or_false] at hrow
    rcases hrow with rfl | rfl | rfl | rfl | rfl | rfl <;> exact ⟨nofun, nofun⟩
  obtain ⟨s, hs, -, -, hagree⟩ := unnamed_rows_of_tree tangle tangleOrigin .empty
  refine ⟨hnames, s, hs, hagree hnames, ?_⟩
  cases hs
  decide +kernel

/-- A row that has an empty name for both relays. -/
def hushed : List Connection :=
  [{ source := { Endpoint.ofGuid "a" with relay := some "" }
     peer := { Endpoint.ofGuid "b" with relay := some "" } }]

/-- The one hop over `hushed` shows no relay, and it is not counted. -/
theorem not_unresolved_eq_unnamed :
    ¬∀ (rows : List Connection) (o : Origin) (seen : RelaySet) (s : Spread),
      trace rows (some o) seen = .ok s →
        s.tally.unresolved = TreeRow.unnamed (TreeRow.ofSpread s) := by
  intro h
  have hcount := h hushed (.withLinks "a" [.between "a" "b"]) .empty _ rfl
  revert hcount
  decide +kernel

end Spread
end VoteTrace
