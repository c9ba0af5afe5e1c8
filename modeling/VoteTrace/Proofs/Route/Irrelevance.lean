import Mathlib.Data.List.Induction
import VoteTrace.Proofs.Route.FirstVote

/-!
What a request for a route does not see.

A request sees its vote, the rows of the hour before the vote, those of voters only where they
are of its host, and the sightings of its authenticator in its round.

Main statement: reports of anything else leave the answer as it is, a route or a fault, however
many arrive and in whatever order.
-/

namespace VoteTrace

/-- A row of any kind on its way into the telemetry. -/
inductive Report where
  | vote (v : Vote)
  | connection (c : DatedConnection)
  | relayConnection (c : DatedConnection)
  | sighting (s : Sighting)
  | round (row : RoundRow)

namespace Telemetry

def add (t : Telemetry) : Report → Telemetry
  | .vote v => t.addVote v
  | .connection c => t.addConnection c
  | .relayConnection c => t.addRelayConnection c
  | .sighting s => t.addSighting s
  | .round row => t.addRound row

def addAll (t : Telemetry) (reports : List Report) : Telemetry :=
  reports.foldl add t

theorem addAll_append_singleton (t : Telemetry) (reports : List Report) (report : Report) :
    t.addAll (reports ++ [report]) = (t.addAll reports).add report :=
  List.foldl_append

theorem mem_sightings_add {t : Telemetry} {s : Sighting} (h : s ∈ t.sightings)
    (report : Report) : s ∈ (t.add report).sightings := by
  cases report with
  | vote v => exact h
  | connection c => exact h
  | relayConnection c => exact h
  | sighting x => exact List.mem_append_left _ h
  | round row => exact h

end Telemetry

/-- The time is out of the hour before the vote of a request, or the request has no vote. -/
def RouteRequest.IsOutOfHour (r : RouteRequest) (t : Telemetry) (timestamp : UInt64) : Prop :=
  ∀ seed ∈ t.seedVote? r, ¬seed.IsRecent timestamp

instance (r : RouteRequest) (t : Telemetry) (timestamp : UInt64) :
    Decidable (r.IsOutOfHour t timestamp) :=
  inferInstanceAs (Decidable (∀ seed ∈ t.seedVote? r, ¬seed.IsRecent timestamp))

namespace Report

/-- The report has nothing to do with a request, as the telemetry stands. -/
def IsIrrelevant (t : Telemetry) (r : RouteRequest) : Report → Prop
  | vote v =>
      v.round ≠ r.round ∨ v.step ≠ 2 ∨
        (r.source ≠ none ∧ ∃ auth ∈ r.auth, v.sender ≠ auth) ∨
        ∃ seed ∈ t.seedVote? r, seed.timestamp ≤ v.timestamp
  | connection c =>
      r.IsOutOfHour t c.timestamp ∨
        ∀ host ∈ r.source,
          if host.guid = "" then c.row.source.name ≠ host.raw
          else c.row.source.guid ≠ host.guid
  | relayConnection c => r.IsOutOfHour t c.timestamp
  | sighting s =>
      s.round ≠ r.round ∨ (∀ auth ∈ r.auth, s.auth ≠ auth) ∨ s.relay = "" ∨
        s ∈ t.sightings
  | round _ => True

theorem IsIrrelevant.mono {t t' : Telemetry} {r : RouteRequest} {report : Report}
    (h : report.IsIrrelevant t r) (hseed : t'.seedVote? r = t.seedVote? r)
    (hsightings : ∀ s ∈ t.sightings, s ∈ t'.sightings) : report.IsIrrelevant t' r := by
  cases report with
  | vote v => simpa only [IsIrrelevant, hseed] using h
  | connection c => simpa only [IsIrrelevant, RouteRequest.IsOutOfHour, hseed] using h
  | relayConnection c => simpa only [IsIrrelevant, RouteRequest.IsOutOfHour, hseed] using h
  | sighting s => exact h.imp_right (.imp_right (.imp_right (hsightings s)))
  | round row => trivial

instance (t : Telemetry) (r : RouteRequest) :
    (report : Report) → Decidable (report.IsIrrelevant t r)
  | vote _ => inferInstanceAs (Decidable (_ ∨ _ ∨ _ ∨ _))
  | connection _ => inferInstanceAs (Decidable (_ ∨ _))
  | relayConnection c => inferInstanceAs (Decidable (r.IsOutOfHour t c.timestamp))
  | sighting _ => inferInstanceAs (Decidable (_ ∨ _ ∨ _ ∨ _))
  | round _ => inferInstanceAs (Decidable True)

end Report

namespace Telemetry

variable {t t' : Telemetry} {r : RouteRequest}

/-- The telemetry has the same to say on a request as before. -/
structure AgreeOn (r : RouteRequest) (t t' : Telemetry) : Prop where
  seedVote_eq : t'.seedVote? r = t.seedVote? r
  relayRows_eq : ∀ v ∈ t.seedVote? r, t'.relayRows v.window = t.relayRows v.window
  voterRows_eq : ∀ v ∈ t.seedVote? r, ∀ host ∈ r.source,
    t'.voterRows v.window host.key = t.voterRows v.window host.key
  reportedRelays_eq : t'.reportedRelays r.round r.auth = t.reportedRelays r.round r.auth

theorem AgreeOn.resolve_eq (h : AgreeOn r t t') : Route.resolve t' r = Route.resolve t r := by
  rw [Route.resolve_eq, Route.resolve_eq, h.seedVote_eq]
  cases hseed : t.seedVote? r with
  | none => rfl
  | some v =>
      have horigin : Route.origin t' v r.source = Route.origin t v r.source := by
        cases hsource : r.source with
        | none => rfl
        | some host =>
            simp only [Route.origin, Route.hostLinks, h.voterRows_eq v hseed host hsource]
      have hspread : Route.spreadOf t' r v = Route.spreadOf t r v := by
        rw [Route.spreadOf, Route.spreadOf, h.relayRows_eq v hseed, horigin,
          h.reportedRelays_eq]
      simp only [Route.ofVote, hspread]

theorem seedVote?_addVote {v : Vote} (h : (Report.vote v).IsIrrelevant t r) :
    (t.addVote v).seedVote? r = t.seedVote? r := by
  rw [seedVote?, firstVote?_addVote]
  apply if_neg
  rintro ⟨⟨hround, hstep, hsender⟩, hearlier⟩
  rcases h with h | h | ⟨hsource, auth, hauth, hne⟩ | ⟨seed, hseed, hle⟩
  · exact h hround
  · exact h hstep
  · have hsome : r.sender = r.auth := if_pos (Option.isSome_iff_ne_none.mpr hsource)
    exact hne (hsender auth (hsome ▸ hauth))
  · exact UInt64.not_lt.mpr hle (hearlier seed hseed)

theorem rowsIn_append_singleton {w : TimeWindow} {rows : List DatedConnection}
    {c : DatedConnection} (h : w.contains c.timestamp = false) :
    rowsIn w (rows ++ [c]) = rowsIn w rows := by
  simp [rowsIn, h]

theorem contains_window_eq_false {timestamp : UInt64} (h : r.IsOutOfHour t timestamp)
    {v : Vote} (hv : v ∈ t.seedVote? r) : v.window.contains timestamp = false :=
  Bool.eq_false_iff.mpr fun hin => h v hv (Vote.contains_window_iff.mp hin)

theorem selects_eq_false {host : SourceHost} {row : Connection}
    (h : if host.guid = "" then row.source.name ≠ host.raw else row.source.guid ≠ host.guid) :
    host.key.selects row = false := by
  unfold SourceHost.key
  split at h
  · rename_i hguid
    simpa [hguid, NodeKey.selects] using h
  · rename_i hguid
    simpa [hguid, NodeKey.selects] using h

theorem voterRows_addConnection {c : DatedConnection}
    (h : (Report.connection c).IsIrrelevant t r) {v : Vote} (hv : v ∈ t.seedVote? r)
    {host : SourceHost} (hhost : host ∈ r.source) :
    (t.addConnection c).voterRows v.window host.key = t.voterRows v.window host.key := by
  rcases h with hout | hother
  · rw [voterRows, addConnection, rowsIn_append_singleton (contains_window_eq_false hout hv),
      voterRows]
  · have hkey := selects_eq_false (hother host hhost)
    cases hin : v.window.contains c.timestamp with
    | false => rw [voterRows, addConnection, rowsIn_append_singleton hin, voterRows]
    | true => simp [voterRows, addConnection, rowsIn, hin, hkey]

theorem reportedRelays_addSighting {s : Sighting} (h : (Report.sighting s).IsIrrelevant t r) :
    (t.addSighting s).reportedRelays r.round r.auth = t.reportedRelays r.round r.auth := by
  cases hauth : r.auth with
  | none => rfl
  | some auth =>
      rw [reportedRelays_some, reportedRelays_some, addSighting, List.filter_append,
        List.map_append]
      by_cases hcounts : s.round = r.round ∧ s.auth = auth
      · rw [List.filter_cons, if_pos (decide_eq_true hcounts), List.filter_nil]
        apply RelaySet.ofList_append_singleton
        rcases h with h | h | h | h
        · exact absurd hcounts.1 h
        · exact absurd hcounts.2 (h auth hauth)
        · exact .inl h
        · exact .inr (List.mem_map_of_mem (List.mem_filter.mpr ⟨h, decide_eq_true hcounts⟩))
      · rw [List.filter_cons, if_neg (decide_eq_true_iff.not.mpr hcounts), List.filter_nil,
          List.map_nil, List.append_nil]

/-- What a report that is irrelevant leaves as it is, kind by kind. -/
theorem agreeOn_add {report : Report} (h : report.IsIrrelevant t r) :
    AgreeOn r t (t.add report) := by
  cases report with
  | vote v => exact ⟨seedVote?_addVote h, fun _ _ => rfl, fun _ _ _ _ => rfl, rfl⟩
  | connection c =>
      exact ⟨rfl, fun _ _ => rfl, fun _ hv _ hhost => voterRows_addConnection h hv hhost, rfl⟩
  | relayConnection c =>
      refine ⟨rfl, fun v hv => ?_, fun _ _ _ _ => rfl, rfl⟩
      exact rowsIn_append_singleton (contains_window_eq_false h hv)
  | sighting s => exact ⟨rfl, fun _ _ => rfl, fun _ _ _ _ => rfl, reportedRelays_addSighting h⟩
  | round row => exact ⟨rfl, fun _ _ => rfl, fun _ _ _ _ => rfl, rfl⟩

theorem AgreeOn.refl (r : RouteRequest) (t : Telemetry) : AgreeOn r t t :=
  ⟨rfl, fun _ _ => rfl, fun _ _ _ _ => rfl, rfl⟩

theorem AgreeOn.trans {t'' : Telemetry} (h : AgreeOn r t t') (h' : AgreeOn r t' t'') :
    AgreeOn r t t'' := by
  refine ⟨h'.seedVote_eq.trans h.seedVote_eq, ?_, ?_,
    h'.reportedRelays_eq.trans h.reportedRelays_eq⟩
  · intro v hv
    exact (h'.relayRows_eq v (h.seedVote_eq ▸ hv)).trans (h.relayRows_eq v hv)
  · intro v hv host hhost
    exact (h'.voterRows_eq v (h.seedVote_eq ▸ hv) host hhost).trans
      (h.voterRows_eq v hv host hhost)

theorem mem_sightings_addAll {s : Sighting} (h : s ∈ t.sightings) (reports : List Report) :
    s ∈ (t.addAll reports).sightings := by
  induction reports using List.reverseRecOn with
  | nil => exact h
  | append_singleton reports report ih =>
      rw [addAll_append_singleton]
      exact mem_sightings_add ih report

theorem agreeOn_addAll {reports : List Report}
    (h : ∀ earlier report later, reports = earlier ++ report :: later →
      report.IsIrrelevant t r ∨ report.IsIrrelevant (t.addAll earlier) r) :
    AgreeOn r t (t.addAll reports) := by
  induction reports using List.reverseRecOn with
  | nil => exact .refl r t
  | append_singleton reports report ih =>
      have hbefore : AgreeOn r t (t.addAll reports) := by
        apply ih
        rintro earlier x later rfl
        exact h earlier x (later ++ [report]) (by simp)
      rw [addAll_append_singleton]
      apply hbefore.trans
      apply agreeOn_add
      -- What was irrelevant at the start still is: there is no other vote, and no sighting less.
      rcases h reports report [] rfl with hstart | hnow
      · exact hstart.mono hbefore.seedVote_eq fun s hs => mem_sightings_addAll hs reports
      · exact hnow

end Telemetry

namespace Route

/-- Reports that have nothing to do with a request, at the start or when they arrive, leave
its answer as it is. -/
theorem resolve_addAll_of_isIrrelevant (t : Telemetry) (r : RouteRequest) (reports : List Report)
    (h : ∀ earlier report later, reports = earlier ++ report :: later →
      report.IsIrrelevant t r ∨ report.IsIrrelevant (t.addAll earlier) r) :
    resolve (t.addAll reports) r = resolve t r :=
  (Telemetry.agreeOn_addAll h).resolve_eq

/-- A vote less than an hour after time began, and a way on from its host. -/
def watched : Telemetry :=
  { votes := [certificateVote 3000 "AUTH"]
    connections := [⟨0, .between "v" "a"⟩]
    relayConnections := [⟨3000, .between "a" "b"⟩]
    sightings := [⟨"far", 42, "AUTH"⟩]
    rounds := [] }

def watching : RouteRequest :=
  { round := 42
    auth := some "AUTH"
    source := some ⟨"v:near", "v", some "near"⟩
    style := .flow }

/-- Reports of every kind that the request does not see. -/
def noise : List Report :=
  [.relayConnection ⟨3001, .between "a" "c"⟩, .round ⟨42, 9, 9, 0, 0⟩,
    .vote (certificateVote 3000 "AUTH"), .vote (certificateVote 1 "OTHER"),
    .connection ⟨3000, .between "w" "c"⟩, .connection ⟨3001, .between "v" "c"⟩,
    .sighting ⟨"far", 42, "AUTH"⟩, .sighting ⟨"", 42, "AUTH"⟩, .sighting ⟨"near", 42, "OTHER"⟩]

theorem resolve_addAll_noise :
    (∀ report ∈ noise, report.IsIrrelevant watched watching) ∧
      resolve (watched.addAll noise) watching = resolve watched watching ∧
      resolve (watched.addAll noise.reverse) watching = resolve watched watching ∧
      (resolve watched watching).toOption.map (fun route => route.tally.hops) = some 2 := by
  have hnoise : ∀ report ∈ noise, report.IsIrrelevant watched watching := by
    decide +kernel
  refine ⟨hnoise, ?_, ?_, by decide +kernel⟩
  · apply resolve_addAll_of_isIrrelevant
    intro earlier report later hsplit
    exact .inl (hnoise report (by simp [hsplit]))
  · apply resolve_addAll_of_isIrrelevant
    intro earlier report later hsplit
    exact .inl (hnoise report (List.mem_reverse.mp (by simp [hsplit])))

end Route
end VoteTrace
