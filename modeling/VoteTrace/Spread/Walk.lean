import VoteTrace.Fault
import VoteTrace.Mesh.RelaySet
import VoteTrace.Spread.FirstHop
import VoteTrace.Spread.Placement
import VoteTrace.Spread.Pool

/-!
Tracing a vote: a walk over connection rows, breadth first, from the origin's links.

No visited nodes are kept. When a hop is walked, every fresh row at its node is spent; the
rows that lead onward wait as hops of the next ring. So a node that two fresh rows lead to is
placed twice, while no row is walked twice and the walk ends.
-/

namespace VoteTrace

structure Hop where
  parent : String
  node : String
  name : String
  parentRelay : Option String
  relay : Option String
  parentPoint : Option GeoPoint
  point : Option GeoPoint
deriving DecidableEq

namespace Hop

/-- A first hop. Its relays come from the rows; where they have none for the origin's side,
the origin's own relay stands in. -/
def seed (rows : List Connection) (o : Origin) (link : Connection) : Hop :=
  let relays := HopRelays.ofRows rows o.guid link.peer.guid
  { parent := o.guid
    node := link.peer.guid
    name := link.peer.name
    parentRelay := relays.relay.or o.relay
    relay := relays.peerRelay
    parentPoint := o.point.or link.source.point
    point := link.peer.point }

/-- The hop over a row that starts where `hop` ended. -/
def onward (hop : Hop) (row : Connection) : Hop :=
  { parent := row.source.guid
    node := row.peer.guid
    name := row.peer.name
    parentRelay := row.source.relay
    relay := row.peer.relay
    parentPoint := hop.point.or row.source.point
    point := row.peer.point }

/-- The hops that follow over the given rows; a row without peer leads nowhere. -/
def next (hop : Hop) (rows : List Connection) : List Hop :=
  (rows.filter Connection.hasPeer).map hop.onward

theorem length_next_le (hop : Hop) (rows : List Connection) :
    (hop.next rows).length ≤ rows.length := by
  simpa [next] using List.length_filter_le _ rows

end Hop

/-- A hop with the number of the ring it was walked in. -/
structure Arrival where
  level : Nat
  hop : Hop
deriving DecidableEq

namespace Arrival

def isSeen (a : Arrival) (seen : RelaySet) : Bool :=
  a.hop.relay.any seen.contains

def place (seen : RelaySet) (a : Arrival) : Placement :=
  { level := UInt32.ofNat a.level
    parent := some a.hop.parent
    node := a.hop.node
    name := a.hop.name
    relay := a.hop.relay
    parentRelay := a.hop.parentRelay
    point := a.hop.point
    parentPoint := a.hop.parentPoint
    seen := a.isSeen seen }

end Arrival

/-- Walks the hops of one ring. The hops that they leave waiting are the next ring. -/
def walkRing : List Hop → Pool → List Hop × Pool
  | [], pool => ([], pool)
  | hop :: ring, pool =>
    let drawn := pool.spend hop.node
    let walked := walkRing ring drawn.2
    (hop.next drawn.1 ++ walked.1, walked.2)

theorem length_walkRing_add_freshSlots_le (ring : List Hop) (pool : Pool) :
    (walkRing ring pool).1.length + (walkRing ring pool).2.freshSlots ≤ pool.freshSlots := by
  induction ring generalizing pool with
  | nil => simp [walkRing]
  | cons hop ring ih =>
      have hnext := hop.length_next_le (pool.spend hop.node).1
      have hspend := pool.length_spend_add_freshSlots_le hop.node
      have hring := ih (pool.spend hop.node).2
      simp only [walkRing, List.length_append]
      omega

/-- The hops in the order they are walked, ring after ring, and what is left of the pool.
The given hops are the ring of the given level. -/
def walk : Nat → List Hop → Pool → List Arrival × Pool
  | _, [], pool => ([], pool)
  | level, hop :: ring, pool =>
    let next := walkRing (hop :: ring) pool
    let walked := walk (level + 1) next.1 next.2
    ((hop :: ring).map (Arrival.mk level) ++ walked.1, walked.2)
termination_by _ ring pool => ring.length + pool.freshSlots
decreasing_by
  have hring := length_walkRing_add_freshSlots_le (hop :: ring) pool
  simp only [List.length_cons]
  omega

namespace Spread

def seedHops (rows : List Connection) (o : Origin) : List Hop :=
  o.seeds.map (Hop.seed rows o)

def ofWalk (rows : List Connection) (o : Origin) (seen : RelaySet)
    (walked : List Arrival × Pool) : Spread :=
  { placements := Placement.ofOrigin o :: walked.1.map (Arrival.place seen)
    tally :=
      { poolSize := rows.length
        hops := walked.1.length
        spent := walked.2.spentCount
        unresolved := walked.1.countP fun a => a.hop.relay.isNone
        rings := UInt32.ofNat (walked.1.getLast?.elim 0 Arrival.level) } }

def ofOrigin (rows : List Connection) (o : Origin) (seen : RelaySet) : Spread :=
  ofWalk rows o seen (walk 1 (seedHops rows o) (Pool.ofRows rows))

/-- Traces the vote of `origin` over `rows`. Without an origin there is no trace. -/
def trace (rows : List Connection) (origin : Option Origin) (seen : RelaySet) :
    Except TraceFault Spread :=
  match origin with
  | none => .error (.invalidInput "no origin observation for this vote")
  | some o => .ok (ofOrigin rows o seen)

end Spread
end VoteTrace
