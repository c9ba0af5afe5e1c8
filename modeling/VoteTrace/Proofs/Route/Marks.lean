import Mathlib.Data.List.Forall2
import VoteTrace.Proofs.Route.Seed
import VoteTrace.Proofs.Spread.Annotations

namespace VoteTrace

theorem Telemetry.mem_reportedRelays {t : Telemetry} {round : UInt64} {auth : Option String}
    {relay : String} :
    relay ∈ (t.reportedRelays round auth).names ↔
      relay ≠ "" ∧ ∃ name ∈ auth, ⟨relay, round, name⟩ ∈ t.sightings := by
  rcases auth with _ | name
  · simp [reportedRelays, RelaySet.empty]
  · rw [reportedRelays_some, RelaySet.mem_names_ofList, and_comm]
    apply and_congr_right
    intro _
    simp only [List.mem_map, List.mem_filter, decide_eq_true_eq, Option.mem_def, Option.some_inj,
      exists_eq_left']
    constructor
    · rintro ⟨s, ⟨hmem, rfl, rfl⟩, rfl⟩
      exact hmem
    · intro hmem
      exact ⟨_, ⟨hmem, rfl, rfl⟩, rfl⟩

namespace TreeRow

/-- The row again; a mark that it has stays on it. -/
structure KeepsMark (row row' : TreeRow) : Prop where
  fields_eq : { row' with seen := row.seen } = row
  seen_of_seen : row.seen = true → row'.seen = true

variable {rows : List Connection} {o : Origin} {seen seen' : RelaySet}

theorem ne_empty_of_mem_shownRelay {relay : String} {shown : Option String}
    (h : relay ∈ shownRelay shown) : relay ≠ "" := by
  simpa using (Option.filter_eq_some_iff.mp h).2

theorem ofSpread_ofOrigin (rows : List Connection) (o : Origin) (seen : RelaySet) :
    ofSpread (.ofOrigin rows o seen) = ofPlacement (.ofOrigin o) ::
      (Spread.walked rows o).map fun a => ofPlacement (a.place seen) := by
  rw [ofSpread, Spread.placements_ofOrigin, List.map_cons, List.map_map]
  rfl

/-- The relays that rows show and those that are sought are without the empty name alike. -/
theorem seen_place_iff {a : Arrival} :
    (ofPlacement (a.place seen)).seen = true ↔
      ∃ relay ∈ (ofPlacement (a.place seen)).relay, relay ∈ seen.names := by
  change (a.place seen).seen = true ↔ ∃ relay ∈ shownRelay (a.place seen).relay, _
  simp [Spread.seen_place_iff, shownRelay, Option.filter_eq_some_iff, and_assoc]

theorem keepsMark_ofPlacement (h : ∀ relay ∈ seen.names, relay ∈ seen'.names) (a : Arrival) :
    KeepsMark (ofPlacement (a.place seen)) (ofPlacement (a.place seen')) := by
  refine ⟨rfl, fun hseen => ?_⟩
  obtain ⟨relay, hrelay, hmem⟩ := seen_place_iff.mp hseen
  exact seen_place_iff.mpr ⟨relay, hrelay, h relay hmem⟩

theorem KeepsMark.refl (row : TreeRow) : KeepsMark row row :=
  ⟨rfl, fun hseen => hseen⟩

theorem KeepsMark.antisymm {row row' : TreeRow} (h : KeepsMark row row')
    (h' : KeepsMark row' row) : row = row' := by
  have hseen : row.seen = row'.seen :=
    Bool.eq_iff_iff.mpr ⟨h.seen_of_seen, h'.seen_of_seen⟩
  rw [← h.fields_eq, hseen]

theorem forall₂_keepsMark (h : ∀ relay ∈ seen.names, relay ∈ seen'.names) :
    List.Forall₂ KeepsMark (ofSpread (.ofOrigin rows o seen))
      (ofSpread (.ofOrigin rows o seen')) := by
  rw [ofSpread_ofOrigin, ofSpread_ofOrigin]
  refine .cons (.refl _) ?_
  rw [List.forall₂_map_left_iff, List.forall₂_map_right_iff, List.forall₂_same]
  exact fun a _ => keepsMark_ofPlacement h a

theorem ofSpread_congr (h : ∀ relay, relay ∈ seen.names ↔ relay ∈ seen'.names) :
    ofSpread (.ofOrigin rows o seen) = ofSpread (.ofOrigin rows o seen') := by
  rw [ofSpread_ofOrigin, ofSpread_ofOrigin]
  congr 1
  apply List.map_congr_left
  intro a _
  exact (keepsMark_ofPlacement (fun relay => (h relay).mp) a).antisymm
    (keepsMark_ofPlacement (fun relay => (h relay).mpr) a)

end TreeRow

namespace Route

variable {t : Telemetry} {r : RouteRequest} {v : Vote}

/-- A row below the root is marked by what it shows. No empty name is shown, and none is sought. -/
theorem seen_place_iff_sighted {round : UInt64} {auth : Option String} {a : Arrival} :
    (TreeRow.ofPlacement (a.place (t.reportedRelays round auth))).seen = true ↔
      ∃ name ∈ auth, ∃ relay ∈ TreeRow.shownRelay a.hop.relay,
        ⟨relay, round, name⟩ ∈ t.sightings := by
  rw [TreeRow.seen_place_iff]
  change (∃ relay ∈ TreeRow.shownRelay a.hop.relay, _) ↔ _
  simp only [Telemetry.mem_reportedRelays]
  constructor
  · rintro ⟨relay, hrelay, -, name, hname, hmem⟩
    exact ⟨name, hname, relay, hrelay, hmem⟩
  · rintro ⟨name, hname, relay, hrelay, hmem⟩
    exact ⟨relay, hrelay, TreeRow.ne_empty_of_mem_shownRelay hrelay, name, hname, hmem⟩

theorem drawing_ofVote (hstyle : r.style = .tree) (t : Telemetry) (v : Vote) :
    (ofVote t r v).drawing = .tree (TreeRow.ofSpread (spreadOf t r v)) := by
  rw [ofVote, hstyle]
  rfl

/-- Other sightings leave the vote and its way as they are. -/
theorem resolve_withSightings (hseed : t.seedVote? r = some v) (hstyle : r.style = .tree)
    (sightings : List Sighting) :
    resolve { t with sightings := sightings } r = .ok { ofVote t r v with
      drawing := .tree (TreeRow.ofSpread (spreadOf { t with sightings := sightings } r v)) } := by
  refine resolve_eq_ok_iff.mpr ⟨v, hseed, ?_⟩
  rw [← drawing_ofVote hstyle]
  rfl

/-- The root of a drawn tree is marked, and below it the rows whose relay sighted the
authenticator of the request, as long as one is shown. However else the same sightings are told,
the answer is the same, and one more changes nothing but that it may mark rows. -/
theorem marks_follow_sightings (t : Telemetry) (r : RouteRequest) (route : Route)
    (hroute : resolve t r = .ok route) (hstyle : r.style = .tree) :
    ∃ root below, route.drawing = .tree (root :: below) ∧ root.seen = true ∧
      (∀ row ∈ below, row.seen = true ↔
        ∃ auth ∈ r.auth, ∃ relay ∈ row.relay, ⟨relay, r.round, auth⟩ ∈ t.sightings) ∧
      (∀ row ∈ below, row.relay ≠ some "" ∧ (row.relay = none → row.seen = false)) ∧
      (∀ sightings : List Sighting, (∀ s, s ∈ sightings ↔ s ∈ t.sightings) →
        resolve { t with sightings := sightings } r = .ok route) ∧
      ∀ s, ∃ rows, resolve (t.addSighting s) r = .ok { route with drawing := .tree rows } ∧
        List.Forall₂ TreeRow.KeepsMark (root :: below) rows := by
  obtain ⟨v, hseed, rfl⟩ := resolve_eq_ok_iff.mp hroute
  have hrows := TreeRow.ofSpread_ofOrigin (t.relayRows v.window) (origin t v r.source)
    (t.reportedRelays r.round r.auth)
  have hmarks : ∀ row ∈ (Spread.walked (t.relayRows v.window) (origin t v r.source)).map
      fun a => TreeRow.ofPlacement (a.place (t.reportedRelays r.round r.auth)),
      row.seen = true ↔
        ∃ auth ∈ r.auth, ∃ relay ∈ row.relay, ⟨relay, r.round, auth⟩ ∈ t.sightings := by
    intro row hrow
    obtain ⟨a, -, rfl⟩ := List.mem_map.mp hrow
    exact seen_place_iff_sighted
  refine ⟨_, _, (drawing_ofVote hstyle t v).trans (congrArg Drawing.tree hrows), rfl, hmarks,
    ?_, ?_, ?_⟩
  · intro row hrow
    refine ⟨?_, fun hnone => Bool.eq_false_iff.mpr fun hseen => ?_⟩
    · obtain ⟨a, -, rfl⟩ := List.mem_map.mp hrow
      exact fun hempty => TreeRow.ne_empty_of_mem_shownRelay hempty rfl
    · obtain ⟨auth, -, relay, hrelay, -⟩ := (hmarks row hrow).mp hseen
      simp [hnone] at hrelay
  · intro sightings hsame
    have hsameRows : TreeRow.ofSpread (spreadOf { t with sightings := sightings } r v) =
        TreeRow.ofSpread (spreadOf t r v) := by
      apply TreeRow.ofSpread_congr
      intro relay
      simp only [Telemetry.mem_reportedRelays, hsame]
    rw [resolve_withSightings hseed hstyle, hsameRows, ← drawing_ofVote hstyle]
  · intro s
    refine ⟨_, resolve_withSightings hseed hstyle _, ?_⟩
    rw [← hrows]
    apply TreeRow.forall₂_keepsMark
    intro relay hrelay
    obtain ⟨hne, name, hname, hmem⟩ := Telemetry.mem_reportedRelays.mp hrelay
    exact Telemetry.mem_reportedRelays.mpr ⟨hne, name, hname, List.mem_append_left [s] hmem⟩

/-- A row from `a` that tells the relay of its other side. -/
def lampRow (peer : String) (relay : Option String) : DatedConnection :=
  ⟨3000, { source := .ofGuid "a", peer := { Endpoint.ofGuid peer with relay := relay } }⟩

/-- A way on to nodes at relays with two names, with an empty name and with none. -/
def lamps : Telemetry :=
  { votes := [certificateVote 3000 "AUTH"]
    connections := [⟨3000, .between "v" "a"⟩]
    relayConnections := [lampRow "b" (some "far"), lampRow "c" (some ""), lampRow "d" none,
      lampRow "e" (some "near")]
    sightings := [⟨"", 42, "AUTH"⟩, ⟨"far", 42, "AUTH"⟩, ⟨"near", 42, "OTHER"⟩]
    rounds := [] }

def lookout : RouteRequest :=
  { round := 42
    auth := some "AUTH"
    source := some ⟨"v", "v", none⟩
    style := .tree }

theorem marks_follow_sightings_lamps :
    ∃ route root below, resolve lamps lookout = .ok route ∧ lookout.style = .tree ∧
      route.drawing = .tree (root :: below) ∧ root.seen = true ∧
      below.map (fun row => (row.id, row.relay)) =
        [("a", none), ("e", some "near"), ("d", none), ("c", none), ("b", some "far")] ∧
      (∀ row ∈ below, row.seen = true ↔ row.relay = some "far") ∧
      ∃ rows, resolve (lamps.addSighting ⟨"near", 42, "AUTH"⟩) lookout =
          .ok { route with drawing := .tree rows } ∧
        List.Forall₂ TreeRow.KeepsMark (root :: below) rows := by
  have hvote : lamps.seedVote? lookout = some (certificateVote 3000 "AUTH") := by
    decide +kernel
  have hroute := resolve_eq_ok_iff.mpr ⟨_, hvote, rfl⟩
  obtain ⟨root, below, hdrawing, hroot, hmarks, hshown, -, hmore⟩ :=
    marks_follow_sightings lamps lookout _ hroute rfl
  have hbelow : below = (TreeRow.ofSpread (spreadOf lamps lookout
      (certificateVote 3000 "AUTH"))).tail := by
    rw [drawing_ofVote rfl] at hdrawing
    rw [Drawing.tree.inj hdrawing, List.tail_cons]
  refine ⟨_, root, below, hroute, rfl, hdrawing, hroot, ?_, ?_, hmore _⟩
  · rw [hbelow]
    decide +kernel
  · intro row hrow
    rw [hmarks row hrow]
    constructor
    · rintro ⟨auth, hauth, relay, hrelay, hmem⟩
      obtain rfl : "AUTH" = auth := Option.some.inj hauth
      have hsighted : relay = "" ∨ relay = "far" := by simpa [lamps, lookout] using hmem
      rcases hsighted with rfl | rfl
      · exact absurd hrelay (hshown row hrow).1
      · exact hrelay
    · intro hfar
      exact ⟨"AUTH", rfl, "far", hfar, by decide⟩

end Route
end VoteTrace
