import VoteTrace.Telemetry.Route

namespace VoteTrace

namespace Vote

/-- The time is in the hour up to the vote, its two ends included. -/
def IsRecent (v : Vote) (timestamp : UInt64) : Prop :=
  timestamp.toNat ≤ v.timestamp.toNat ∧ v.timestamp.toNat - timestamp.toNat ≤ 3600

instance (v : Vote) (timestamp : UInt64) : Decidable (v.IsRecent timestamp) :=
  inferInstanceAs (Decidable (_ ∧ _))

theorem contains_window_iff {v : Vote} {timestamp : UInt64} :
    v.window.contains timestamp = true ↔ v.IsRecent timestamp :=
  TimeWindow.contains_endingAt_iff v.timestamp lookback timestamp

/-- The vote is in the certificate of the round, and it is of the sender if one is given. -/
def Certifies (v : Vote) (round : UInt64) (sender : Option String) : Prop :=
  v.round = round ∧ v.step = 2 ∧ ∀ auth ∈ sender, v.sender = auth

instance (v : Vote) (round : UInt64) (sender : Option String) :
    Decidable (v.Certifies round sender) :=
  inferInstanceAs (Decidable (_ ∧ _))

end Vote

namespace Telemetry

theorem isCandidate_iff {round : UInt64} {sender : Option String} {v : Vote} :
    isCandidate round sender v = true ↔ v.Certifies round sender := by
  simp [isCandidate, Vote.certificateStep, Vote.Certifies, and_assoc, Option.all_eq_true]

/-- The vote that a request is about, if there is one. -/
def seedVote? (t : Telemetry) (r : RouteRequest) : Option Vote :=
  t.firstVote? r.round r.sender

theorem rowsIn_window (v : Vote) (rows : List DatedConnection) :
    rowsIn v.window rows =
      (rows.filter fun c => v.IsRecent c.timestamp).map DatedConnection.row := by
  rw [rowsIn]
  congr 1
  apply List.filter_congr
  intro c _
  rw [Bool.eq_iff_iff, decide_eq_true_iff]
  exact Vote.contains_window_iff

theorem reportedRelays_some (t : Telemetry) (round : UInt64) (auth : String) :
    t.reportedRelays round (some auth) = .ofList
      ((t.sightings.filter fun s => s.round = round ∧ s.auth = auth).map Sighting.relay) := by
  rw [reportedRelays, sightingsOf, List.filter_filter]
  congr 2
  apply List.filter_congr
  intro s _
  rw [Bool.eq_iff_iff, decide_eq_true_iff]
  simp [and_comm]

end Telemetry

namespace Route

/-- The trace of a vote for a request. -/
def spreadOf (t : Telemetry) (r : RouteRequest) (v : Vote) : Spread :=
  .ofOrigin (t.relayRows v.window) (origin t v r.source) (t.reportedRelays r.round r.auth)

/-- The answer to a request, given its vote. -/
def ofVote (t : Telemetry) (r : RouteRequest) (v : Vote) : Route :=
  { round := r.round
    auth := r.auth
    source := r.source.map SourceHost.raw
    window := v.window
    voteTimestamp := v.timestamp
    style := r.style
    drawing := Drawing.ofSpread r.style (spreadOf t r v)
    tally := (spreadOf t r v).tally }

/-- What is missing where there is no vote. -/
def fault (r : RouteRequest) : QueryFault :=
  match r.sender with
  | some sender => .noVoteFrom r.round sender
  | none => .noVote r.round

theorem resolve_eq (t : Telemetry) (r : RouteRequest) :
    resolve t r = match t.seedVote? r with
      | some v => .ok (ofVote t r v)
      | none => .error (fault r) := by
  unfold resolve voteFor fault Telemetry.seedVote?
  cases t.firstVote? r.round r.sender with
  | some v => rfl
  | none => cases r.sender <;> rfl

theorem resolve_eq_ok_iff {t : Telemetry} {r : RouteRequest} {route : Route} :
    resolve t r = .ok route ↔ ∃ v, t.seedVote? r = some v ∧ ofVote t r v = route := by
  rw [resolve_eq]
  cases t.seedVote? r with
  | some v => simp
  | none => simp

/-- A vote of round 42 of which nobody knows where it was sent. -/
def certificateVote (timestamp : UInt64) (sender : String) : Vote :=
  { node := "tel"
    timestamp := timestamp
    sender := sender
    round := 42
    period := 0
    step := 2
    weight := 1
    lat := none
    long := none }

end Route
end VoteTrace
