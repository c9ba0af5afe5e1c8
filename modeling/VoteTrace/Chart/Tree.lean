import VoteTrace.Spread.Placement

namespace VoteTrace

structure TreeRow where
  id : String
  parent : Option String
  name : String
  relay : Option String
  level : UInt32
  tooltip : String
  seen : Bool
deriving DecidableEq

namespace TreeRow

def rootTooltip : String := "Vote Origin"

def hopTooltip : String := "Vote Flow"

def shownRelay (relay : Option String) : Option String :=
  relay.filter (· != "")

def ofPlacement (p : Placement) : TreeRow :=
  { id := p.node
    parent := p.parent
    name := p.name
    relay := shownRelay p.relay
    level := p.level
    tooltip := if p.isRoot then rootTooltip else hopTooltip
    seen := p.seen }

def ofSpread (s : Spread) : List TreeRow :=
  s.placements.map ofPlacement

end TreeRow
end VoteTrace
