import VoteTrace.Spread.Placement

namespace VoteTrace

/-- A flow of one unit from a parent to a node. Parallel flows are not added up. -/
structure FlowLink where
  source : String
  target : String
  weight : UInt32
  sourceRelay : Option String
  targetRelay : Option String
deriving DecidableEq

namespace FlowLink

def ofPlacement? (p : Placement) : Option FlowLink :=
  p.parent.map fun parent =>
    { source := parent
      target := p.node
      weight := 1
      sourceRelay := p.parentRelay
      targetRelay := p.relay }

def ofSpread (s : Spread) : List FlowLink :=
  s.placements.filterMap ofPlacement?

end FlowLink
end VoteTrace
