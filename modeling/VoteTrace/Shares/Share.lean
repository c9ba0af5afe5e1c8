import VoteTrace.Ascending
import VoteTrace.Telemetry.Rows

namespace VoteTrace

namespace Sighting

def ofRound (sightings : List Sighting) (round : UInt64) : List Sighting :=
  sightings.filter fun s => s.round == round

def pair (s : Sighting) : String × String := (s.relay, s.auth)

def comparePairs (a b : String × String) : Ordering :=
  (compare a.1 b.1).then (compare a.2 b.2)

/-- The distinct pairs of a relay and an authenticator it listed in the round. -/
def pairs (sightings : List Sighting) (round : UInt64) : List (String × String) :=
  Ascending.ofList comparePairs ((ofRound sightings round).map pair)

end Sighting

/-- How widely an authenticator was seen in a round; to see it again counts for nothing. -/
structure Share where
  round : UInt64
  auth : String
  /-- Relays that listed the authenticator. -/
  count : Nat
  /-- Relays that listed anyone. -/
  relayCount : Nat
deriving DecidableEq

/-- Which end of a listing the least seen authenticators are at. -/
inductive ShareOrder where
  | ascending
  | descending
deriving DecidableEq

namespace Share

/-- The share as a quotient, in any numbers that can be divided. -/
def quotient {α : Type} [Div α] (ofNat : Nat → α) (s : Share) : α :=
  ofNat s.count / ofNat s.relayCount

def toFloat (s : Share) : Float := s.quotient Float.ofNat

/-- The order of two shares of one round. Over one number of relays the counts decide; equal
shares stand in the order of their names, whichever way the listing runs. -/
def compareIn (order : ShareOrder) (a b : Share) : Ordering :=
  match order with
  | .ascending => (compare a.count b.count).then (compare a.auth b.auth)
  | .descending => (compare b.count a.count).then (compare a.auth b.auth)

/-- The shares of the authenticators in a list of distinct pairs. -/
def ofPairs (round : UInt64) (pairs : List (String × String)) : List Share :=
  let relayCount := (Ascending.ofList compare (pairs.map Prod.fst)).length
  (Ascending.ofList compare (pairs.map Prod.snd)).map fun auth =>
    ⟨round, auth, pairs.countP fun pair => pair.2 == auth, relayCount⟩

def listing (sightings : List Sighting) (round : UInt64) (order : ShareOrder) :
    List Share :=
  Ascending.ofList (compareIn order) (ofPairs round (Sighting.pairs sightings round))

end Share
end VoteTrace
