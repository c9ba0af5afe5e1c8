import VoteTrace.Chart.Flow
import VoteTrace.Chart.MapView
import VoteTrace.Chart.Style
import VoteTrace.Chart.Tree

namespace VoteTrace

inductive Drawing where
  | tree (rows : List TreeRow)
  | flow (links : List FlowLink)
  | geo (view : MapView)
deriving DecidableEq

namespace Drawing

def style : Drawing → Style
  | tree _ => .tree
  | flow _ => .flow
  | geo _ => .geo

def ofSpread (style : Style) (s : Spread) : Drawing :=
  match style with
  | .tree => tree (TreeRow.ofSpread s)
  | .flow => flow (FlowLink.ofSpread s)
  | .geo => geo (MapView.ofSpread s)

end Drawing
end VoteTrace
