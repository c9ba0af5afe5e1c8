import VoteTrace.Shares.Share
import VoteTrace.Telemetry.Collection

namespace VoteTrace

structure RelayLoad where
  round : UInt64
  relay : String
  authCount : Nat
deriving DecidableEq

structure Matrix where
  round : UInt64
  relays : List String
  /-- The most widely seen first. -/
  auths : List String
  pairs : List (String × String)
deriving DecidableEq

namespace RelayLoad

def authCountOf (sightings : List Sighting) (relay : String) : Nat :=
  (Ascending.ofList compare
    ((sightings.filter fun s => s.relay == relay).map Sighting.auth)).length

def listing (sightings : List Sighting) (round : UInt64) : List RelayLoad :=
  let inRound := Sighting.ofRound sightings round
  (Ascending.ofList compare (inRound.map Sighting.relay)).map fun relay =>
    ⟨round, relay, authCountOf inRound relay⟩

end RelayLoad

/-- The summary of a round of which only sightings are known. -/
def RoundRow.ofSightings (sightings : List Sighting) (round : UInt64) : RoundRow :=
  let inRound := Sighting.ofRound sightings round
  { round := round
    relayCount := (Ascending.ofList compare (inRound.map Sighting.relay)).length
    authCount := (Ascending.ofList compare (inRound.map Sighting.auth)).length
    period := 0
    step := 0 }

/-- Puts a row in its place among rows in the order of their rounds. A row of the same round
has to go. -/
def RoundRow.put (table : List RoundRow) (row : RoundRow) : List RoundRow :=
  match table with
  | [] => [row]
  | r :: rest =>
    if row.round < r.round then row :: r :: rest
    else if row.round = r.round then row :: rest
    else r :: put rest row

def Matrix.ofSightings (sightings : List Sighting) (round : UInt64) : Matrix :=
  { round := round
    relays := Ascending.ofList compare
      ((Sighting.ofRound sightings round).map Sighting.relay)
    auths := (Share.listing sightings round .descending).map Share.auth
    pairs := Sighting.pairs sightings round }

namespace Telemetry

def sightedRounds (t : Telemetry) : List UInt64 :=
  Ascending.ofList compare (t.sightings.map Sighting.round)

def shares (t : Telemetry) (round : UInt64) (order : ShareOrder) : List Share :=
  Share.listing (t.sightingsOf round) round order

def authenticators (t : Telemetry) (round : UInt64) : List Share :=
  t.shares round .ascending

def relayLoads (t : Telemetry) (round : UInt64) : List RelayLoad :=
  RelayLoad.listing (t.sightingsOf round) round

def matrix (t : Telemetry) (round : UInt64) : Matrix :=
  Matrix.ofSightings (t.sightingsOf round) round

def dashboardRounds : Nat := 20

def sightedRows (t : Telemetry) : List RoundRow :=
  t.sightedRounds.map fun round => RoundRow.ofSightings (t.sightingsOf round) round

/-- All that is known of the rounds, put into a table row by row: what the sightings of each come
to, and then what was reported. -/
def roundTable (t : Telemetry) : List RoundRow :=
  t.rounds.foldl RoundRow.put (t.sightedRows.foldl RoundRow.put [])

def latestRounds (t : Telemetry) (limit : Nat) : List RoundRow :=
  t.roundTable.reverse.take limit

end Telemetry
end VoteTrace
