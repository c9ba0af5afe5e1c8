import VoteTrace.Mesh.RelaySet
import VoteTrace.Telemetry.Rows

namespace VoteTrace

/-- How the rows of a node are found: by its identifier, or else by its name. -/
inductive NodeKey where
  | guid (guid : String)
  | name (name : String)
deriving DecidableEq

def NodeKey.selects (key : NodeKey) (row : Connection) : Bool :=
  match key with
  | guid g => row.source.guid == g
  | name n => row.source.name == n

/-- Rows stay in the order in which they arrived. -/
structure Telemetry where
  votes : List Vote
  /-- Rows reported by voters. -/
  connections : List DatedConnection
  /-- Rows reported by relays. -/
  relayConnections : List DatedConnection
  sightings : List Sighting
  rounds : List RoundRow
deriving DecidableEq

structure RowCounts where
  votes : Nat
  connections : Nat
  relayConnections : Nat
  sightings : Nat
  rounds : Nat
deriving DecidableEq

namespace Telemetry

def empty : Telemetry := ⟨[], [], [], [], []⟩

def counts (t : Telemetry) : RowCounts :=
  ⟨t.votes.length, t.connections.length, t.relayConnections.length, t.sightings.length,
    t.rounds.length⟩

def addVote (t : Telemetry) (v : Vote) : Telemetry :=
  { t with votes := t.votes ++ [v] }

def addConnection (t : Telemetry) (c : DatedConnection) : Telemetry :=
  { t with connections := t.connections ++ [c] }

def addRelayConnection (t : Telemetry) (c : DatedConnection) : Telemetry :=
  { t with relayConnections := t.relayConnections ++ [c] }

def addSighting (t : Telemetry) (s : Sighting) : Telemetry :=
  { t with sightings := t.sightings ++ [s] }

def addRound (t : Telemetry) (r : RoundRow) : Telemetry :=
  { t with rounds := t.rounds ++ [r] }

def isCandidate (round : UInt64) (sender : Option String) (v : Vote) : Bool :=
  v.round == round && v.step == Vote.certificateStep && sender.all (v.sender == ·)

/-- The earliest vote of a list, the first among those of one time. -/
def earliest? : List Vote → Option Vote
  | [] => none
  | v :: rest =>
    match earliest? rest with
    | none => some v
    | some w => if w.timestamp < v.timestamp then some w else some v

def firstVote? (t : Telemetry) (round : UInt64) (sender : Option String) : Option Vote :=
  earliest? (t.votes.filter (isCandidate round sender))

def rowsIn (w : TimeWindow) (rows : List DatedConnection) : List Connection :=
  (rows.filter fun c => w.contains c.timestamp).map DatedConnection.row

def relayRows (t : Telemetry) (w : TimeWindow) : List Connection :=
  rowsIn w t.relayConnections

def voterRows (t : Telemetry) (w : TimeWindow) (key : NodeKey) : List Connection :=
  (rowsIn w t.connections).filter key.selects

def sightingsOf (t : Telemetry) (round : UInt64) : List Sighting :=
  t.sightings.filter fun s => s.round == round

/-- The relays whose certificate of the round listed `auth`; without `auth`, none. -/
def reportedRelays (t : Telemetry) (round : UInt64) (auth : Option String) : RelaySet :=
  match auth with
  | none => .empty
  | some auth =>
    .ofList (((t.sightingsOf round).filter fun s => s.auth == auth).map Sighting.relay)

end Telemetry
end VoteTrace
