import VoteTrace.Mesh.Origin

namespace VoteTrace

structure Placement where
  level : UInt32
  /-- The node the hop came from; the origin has none. -/
  parent : Option String
  node : String
  name : String
  relay : Option String
  parentRelay : Option String
  point : Option GeoPoint
  parentPoint : Option GeoPoint
  /-- The relay has itself reported the authenticator of the vote. -/
  seen : Bool
deriving DecidableEq

namespace Placement

def ofOrigin (o : Origin) : Placement :=
  { level := 0
    parent := none
    node := o.guid
    name := o.name
    relay := o.relay
    parentRelay := none
    point := o.point
    parentPoint := none
    seen := true }

def isRoot (p : Placement) : Bool := p.parent.isNone

end Placement

structure Tally where
  poolSize : Nat
  hops : Nat
  /-- Rows spent, on a hop or as a way back. -/
  spent : Nat
  /-- Hops to a node whose relay has no entry. -/
  unresolved : Nat
  /-- The level of the last hop. -/
  rings : UInt32
deriving DecidableEq

/-- The origin and then every hop in the order of the walk. A node that was reached over several
rows has several placements. -/
structure Spread where
  placements : List Placement
  tally : Tally
deriving DecidableEq

namespace Spread

def root? (s : Spread) : Option Placement := s.placements.head?

def size (s : Spread) : Nat := s.placements.length

def isEmpty (s : Spread) : Bool := s.placements.isEmpty

def maxLevel (s : Spread) : UInt32 :=
  s.placements.foldl (fun level p => max level p.level) 0

def seenPositions (s : Spread) : List Nat :=
  (s.placements.zipIdx.filter fun (p, _) => p.seen).map fun (_, i) => i

end Spread
end VoteTrace
